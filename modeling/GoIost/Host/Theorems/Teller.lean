import GoIost.Host.Teller
import GoIost.Common.Except

namespace GoIost.Host

section DoPay

variable (toGas : Cost → Int64)
  (costGas : String → Int64 → TokenBalances → Except String TokenBalances)
  (isContract : String → Bool) (contractOwner : String → Option String) (gasRatio : Int64)

theorem doPay_append (l₁ l₂ : List (String × Cost)) (db : TokenBalances) :
    doPay toGas costGas isContract contractOwner gasRatio (l₁ ++ l₂) db =
      doPay toGas costGas isContract contractOwner gasRatio l₁ db >>=
        doPay toGas costGas isContract contractOwner gasRatio l₂ :=
  List.foldlM_append _ _ _ _

-- A contract `c` owned by `o` frees two units of RAM and `o` uses two: in one order `o` cannot
-- pay from its balance of one, in the other the refund comes first and `DoPay` succeeds.
theorem doPay_depends_on_order (db : TokenBalances) :
    let isContract := fun k => k == "c"
    let contractOwner : String → Option String := fun _ => some "o"
    let o : String × Cost := ("o", ⟨2, 0, 0, []⟩)
    let c : String × Cost := ("c", ⟨-2, 0, 0, []⟩)
    let db := setTokenBalance db "ram" "o" 1
    [o, c].Perm [c, o] ∧
      doPay toGas costGas isContract contractOwner 0 [o, c] db = .error (.payRamFailed "o" 2 1) ∧
      doPay toGas costGas isContract contractOwner 0 [c, o] db = .ok db := by
  have ho : "o".endsWith ".iost" = false := rfl
  have hc : "c".endsWith ".iost" = false := rfl
  have short : ((1 : Int64) - 2).toInt < 0 := by decide
  have refund : ¬((1 : Int64) - -2).toInt < 0 := by decide
  have pay : (1 : Int64) - -2 - 2 = 1 := by decide
  refine ⟨.swap _ _ _, ?_, ?_⟩
  · simp [doPay, payEntry, ho, short]
    rfl
  · simp [doPay, payEntry, ho, hc, refund, pay]
    rfl

end DoPay

-- What an entry of `h.cost` does to the RAM balances.
inductive RamCharge
  | skip
  | pay (payer : String)
  | noOwner
deriving DecidableEq

section Independence

variable (toGas : Cost → Int64)
  (costGas : String → Int64 → TokenBalances → Except String TokenBalances)
  (isContract : String → Bool) (contractOwner : String → Option String) (gasRatio : Int64)

def ramCharge (k : String) : RamCharge :=
  if k.endsWith ".iost" then .skip
  else if isContract k then
    match contractOwner k with
    | some p => .pay p
    | none => .noOwner
  else .pay k

-- Two entries that do not charge RAM to the same account.
def Apart (a b : String × Cost) : Prop :=
  ∀ p, ramCharge isContract contractOwner a.1 = .pay p →
    ramCharge isContract contractOwner b.1 ≠ .pay p

theorem payEntry_of_noFee {db : TokenBalances} {k : String} {c : Cost}
    (hfee : gasRatio * toGas c = 0) :
    payEntry toGas costGas isContract contractOwner gasRatio db (k, c) =
      match ramCharge isContract contractOwner k with
      | .skip => .ok db
      | .noOwner => .error (.noOwner k)
      | .pay p =>
        if db "ram" p - c.data < 0 then .error (.payRamFailed p c.data (db "ram" p))
        else .ok (setTokenBalance db "ram" p (db "ram" p - c.data)) := by
  unfold payEntry ramCharge
  simp only [hfee, ne_eq, not_true_eq_false, if_false]
  cases k.endsWith ".iost" <;> cases isContract k <;> try rfl
  cases contractOwner k <;> rfl

variable {toGas costGas isContract contractOwner gasRatio}

theorem payEntry_comm {a b : String × Cost} (ha : gasRatio * toGas a.2 = 0)
    (hb : gasRatio * toGas b.2 = 0) (hab : Apart isContract contractOwner a b)
    {db r : TokenBalances} :
    (∃ d, payEntry toGas costGas isContract contractOwner gasRatio db a = .ok d ∧
        payEntry toGas costGas isContract contractOwner gasRatio d b = .ok r) ↔
      (∃ d, payEntry toGas costGas isContract contractOwner gasRatio db b = .ok d ∧
        payEntry toGas costGas isContract contractOwner gasRatio d a = .ok r) := by
  obtain ⟨k, c⟩ := a
  obtain ⟨k', c'⟩ := b
  simp only [payEntry_of_noFee toGas costGas isContract contractOwner gasRatio ha,
    payEntry_of_noFee toGas costGas isContract contractOwner gasRatio hb]
  cases h1 : ramCharge isContract contractOwner k <;>
    cases h2 : ramCharge isContract contractOwner k'
  case pay.pay p q =>
    have hne : p ≠ q := fun h => hab p h1 (h ▸ h2)
    by_cases cp : (db "ram" p - c.data).toInt < 0 <;>
      by_cases cq : (db "ram" q - c'.data).toInt < 0 <;>
      simp [cp, cq, hne, Ne.symm hne, setTokenBalance_comm db "ram" hne]
  all_goals simp

theorem Apart.symm {a b : String × Cost} (h : Apart isContract contractOwner a b) :
    Apart isContract contractOwner b a :=
  fun p hb ha => h p ha hb

-- Without shared RAM payers and gas, every enumeration order of `h.cost` gives `DoPay` the same
-- success and the same balances; only which error it reports can differ.
theorem doPay_perm_of_apart {l₁ l₂ : List (String × Cost)} (hp : l₁.Perm l₂)
    (hfee : ∀ e ∈ l₁, gasRatio * toGas e.2 = 0)
    (hapart : l₁.Pairwise (Apart isContract contractOwner)) (db r : TokenBalances) :
    doPay toGas costGas isContract contractOwner gasRatio l₁ db = .ok r ↔
      doPay toGas costGas isContract contractOwner gasRatio l₂ db = .ok r := by
  induction hp generalizing db r with
  | nil => rfl
  | cons x _ ih =>
    simp only [doPay, List.foldlM_cons, bind_eq_ok_iff] at ih ⊢
    exact exists_congr fun d => and_congr_right fun _ =>
      ih (fun e he => hfee e (List.mem_cons_of_mem x he)) (List.pairwise_cons.mp hapart).2 d r
  | swap x y l =>
    have hxy := (List.pairwise_cons.mp hapart).1 x (List.mem_cons_self _ _)
    have hy := hfee y (List.mem_cons_self _ _)
    have hx := hfee x (List.mem_cons_of_mem _ (List.mem_cons_self _ _))
    simp only [doPay, List.foldlM_cons, bind_eq_ok_iff]
    constructor
    · rintro ⟨d₁, h₁, d₂, h₂, h₃⟩
      obtain ⟨d, h, h'⟩ := (payEntry_comm hy hx hxy).1 ⟨d₁, h₁, h₂⟩
      exact ⟨d, h, d₂, h', h₃⟩
    · rintro ⟨d₁, h₁, d₂, h₂, h₃⟩
      obtain ⟨d, h, h'⟩ := (payEntry_comm hy hx hxy).2 ⟨d₁, h₁, h₂⟩
      exact ⟨d, h, d₂, h', h₃⟩
  | trans h₁₂ _ ih₁ ih₂ =>
    exact (ih₁ hfee hapart db r).trans (ih₂ (fun e he => hfee e (h₁₂.mem_iff.mpr he))
      ((h₁₂.pairwise_iff fun {_ _} => Apart.symm).mp hapart) db r)

end Independence

theorem doPay_perm_of_apart_two_accounts :
    let a : String × Cost := ("a", ⟨1, 0, 0, []⟩)
    let b : String × Cost := ("b", ⟨1, 0, 0, []⟩)
    let db : TokenBalances := fun _ _ => 1
    doPay (fun _ => 0) (fun _ _ => .ok) (fun _ => false) (fun _ => none) 0 [a, b] db =
        .ok (setTokenBalance (setTokenBalance db "ram" "a" 0) "ram" "b" 0) ↔
      doPay (fun _ => 0) (fun _ _ => .ok) (fun _ => false) (fun _ => none) 0 [b, a] db =
        .ok (setTokenBalance (setTokenBalance db "ram" "a" 0) "ram" "b" 0) :=
  doPay_perm_of_apart (.swap _ _ _) (by simp)
    (List.pairwise_pair.mpr fun p ha hb => by cases ha; exact absurd hb (by decide)) _ _

end GoIost.Host
