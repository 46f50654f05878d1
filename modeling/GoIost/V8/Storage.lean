import GoIost.Host.Teller

namespace GoIost.V8

open Host

-- A Go `string` and the contents of a `*C.char`: bytes.
abbrev GoString := List UInt8

-- The errors a binding hands back to the sandbox as its `*C.char`.
inductive BindingError
  | getSandbox           -- `ErrGetSandbox`, declared outside this file
  | invalidDbValType     -- `ErrInvalidDbValType`, "invalid db value type"
  | marshal (err : String) -- the error of `json.Marshal`
deriving DecidableEq, Repr

-- A value the host's storage hands back as `interface{}`: one of the four types
-- `dbValToString` knows, or a value of any other type.
inductive DbVal
  | int64 (v : Int64)
  | string (v : GoString)
  | bool (v : Bool)
  | bytes (v : List UInt8)
  | other
deriving DecidableEq, Repr

-- `dbValToString`, with `strconv.FormatInt(v, 10)` and `strconv.FormatBool`.
def dbValToString : DbVal → Except BindingError GoString
  | .int64 v => .ok (toString v.toInt).toUTF8.toList
  | .string v => .ok v
  | .bool v => .ok (toString v).toUTF8.toList
  | .bytes v => .ok v
  | .other => .error .invalidDbValType

-- What a binding leaves behind: the `*C.char` it returns (`nil` is `none`), and what it writes to
-- `*gasUsed` and to `*result`, if it writes them.
structure Written (α : Type) where
  err : Option BindingError
  gasUsed : Option UInt64
  result : Option α
deriving DecidableEq, Repr

-- `C.size_t(x)` of an `int64` (or of a Go `int`, 64 bits wide): the same bits, unsigned.
def sizeT (x : Int64) : UInt64 :=
  UInt64.ofNat (x.toInt % 2 ^ 64).toNat

-- `owner == nil || C.GoString(owner) == ""` calls the host without an owner.
def ownerArg : Option GoString → Option GoString
  | some o => if o = [] then none else some o
  | none => none

-- The methods of `sbx.host` the bindings call, declared outside this file; each takes the owner
-- last (`none` when called without one) and answers with the cost of the access.
structure HostStorage (Sandbox : Type) where
  put : Sandbox → GoString → GoString → Option GoString → Cost
  has : Sandbox → GoString → Option GoString → Bool × Cost
  get : Sandbox → GoString → Option GoString → Option DbVal × Cost
  del : Sandbox → GoString → Option GoString → Cost
  mapPut : Sandbox → GoString → GoString → GoString → Option GoString → Cost
  mapHas : Sandbox → GoString → GoString → Option GoString → Bool × Cost
  mapGet : Sandbox → GoString → GoString → Option GoString → Option DbVal × Cost
  mapDel : Sandbox → GoString → GoString → Option GoString → Cost
  mapKeys : Sandbox → GoString → Option GoString → List GoString × Cost
  mapLen : Sandbox → GoString → Option GoString → Int64 × Cost
  globalHas : Sandbox → GoString → GoString → Option GoString → Bool × Cost
  globalGet : Sandbox → GoString → GoString → Option GoString → Option DbVal × Cost
  globalMapHas : Sandbox → GoString → GoString → GoString → Option GoString → Bool × Cost
  globalMapGet :
    Sandbox → GoString → GoString → GoString → Option GoString → Option DbVal × Cost
  globalMapKeys : Sandbox → GoString → GoString → Option GoString → List GoString × Cost
  globalMapLen : Sandbox → GoString → GoString → Option GoString → Int64 × Cost

section

variable {Sandbox β α : Type}

-- The body every binding shares: `GetSandbox`, then the host call with or without the owner; then
-- `finish` writes the gas, `size_t(cost.CPU)`, and the result.
def hostCall (sbx : Option Sandbox) (owner : Option GoString)
    (op : Sandbox → Option GoString → β × Cost) (finish : β → UInt64 → Written α) : Written α :=
  match sbx with
  | none => ⟨some .getSandbox, none, none⟩
  | some s =>
    let (r, cost) := op s (ownerArg owner)
    finish r (sizeT cost.cpu)

-- The ways the bindings end after the host call.
namespace Finish

-- `Put`, `Del`, `MapPut` and `MapDel` write the gas alone.
def gas (_ : Unit) (gasUsed : UInt64) : Written Unit :=
  ⟨none, some gasUsed, none⟩

-- The `Has` bindings and the `Len` bindings write the gas and the answer.
def answer {γ : Type} (conv : β → γ) (r : β) (gasUsed : UInt64) : Written γ :=
  ⟨none, some gasUsed, some (conv r)⟩

-- `goGet`: a `nil` value is a `nil` result; an error of `dbValToString` is returned, with the gas
-- already written.
def getChecked (val : Option DbVal) (gasUsed : UInt64) : Written (Option GoString) :=
  match val with
  | none => ⟨none, some gasUsed, some none⟩
  | some v =>
    match dbValToString v with
    | .error err => ⟨some err, some gasUsed, none⟩
    | .ok valStr => ⟨none, some gasUsed, some (some valStr)⟩

-- `goMapGet`, `goGlobalGet` and `goGlobalMapGet`: `valStr, _ := dbValToString(val)` drops the
-- error, and `valStr` is then empty.
def getUnchecked (val : Option DbVal) (gasUsed : UInt64) : Written (Option GoString) :=
  match val with
  | none => ⟨none, some gasUsed, some none⟩
  | some v => ⟨none, some gasUsed, some (some ((dbValToString v).toOption.getD []))⟩

-- The `Keys` bindings marshal the field names first, and write the gas only if that succeeds.
def keys (marshal : List GoString → Except String GoString) (fstr : List GoString)
    (gasUsed : UInt64) : Written GoString :=
  match marshal fstr with
  | .error err => ⟨some (.marshal err), none, none⟩
  | .ok j => ⟨none, some gasUsed, some j⟩

end Finish

end

section Bindings

variable {Sandbox : Type} (h : HostStorage Sandbox) (sbx : Option Sandbox)
  (marshal : List GoString → Except String GoString)

def goPut (key val owner : Option GoString) : Written Unit :=
  hostCall sbx owner (fun s o => ((), h.put s (key.getD []) (val.getD []) o)) Finish.gas

def goHas (key owner : Option GoString) : Written Bool :=
  hostCall sbx owner (fun s o => h.has s (key.getD []) o) (Finish.answer id)

def goGet (key owner : Option GoString) : Written (Option GoString) :=
  hostCall sbx owner (fun s o => h.get s (key.getD []) o) Finish.getChecked

def goDel (key owner : Option GoString) : Written Unit :=
  hostCall sbx owner (fun s o => ((), h.del s (key.getD []) o)) Finish.gas

def goMapPut (key field val owner : Option GoString) : Written Unit :=
  hostCall sbx owner (fun s o => ((), h.mapPut s (key.getD []) (field.getD []) (val.getD []) o))
    Finish.gas

def goMapHas (key field owner : Option GoString) : Written Bool :=
  hostCall sbx owner (fun s o => h.mapHas s (key.getD []) (field.getD []) o) (Finish.answer id)

def goMapGet (key field owner : Option GoString) : Written (Option GoString) :=
  hostCall sbx owner (fun s o => h.mapGet s (key.getD []) (field.getD []) o) Finish.getUnchecked

def goMapDel (key field owner : Option GoString) : Written Unit :=
  hostCall sbx owner (fun s o => ((), h.mapDel s (key.getD []) (field.getD []) o)) Finish.gas

def goMapKeys (key owner : Option GoString) : Written GoString :=
  hostCall sbx owner (fun s o => h.mapKeys s (key.getD []) o) (Finish.keys marshal)

def goMapLen (key owner : Option GoString) : Written UInt64 :=
  hostCall sbx owner (fun s o => h.mapLen s (key.getD []) o) (Finish.answer sizeT)

def goGlobalHas (contractName key owner : Option GoString) : Written Bool :=
  hostCall sbx owner (fun s o => h.globalHas s (contractName.getD []) (key.getD []) o)
    (Finish.answer id)

def goGlobalGet (contractName key owner : Option GoString) : Written (Option GoString) :=
  hostCall sbx owner (fun s o => h.globalGet s (contractName.getD []) (key.getD []) o)
    Finish.getUnchecked

def goGlobalMapHas (contractName key field owner : Option GoString) : Written Bool :=
  hostCall sbx owner
    (fun s o => h.globalMapHas s (contractName.getD []) (key.getD []) (field.getD []) o)
    (Finish.answer id)

def goGlobalMapGet (contractName key field owner : Option GoString) :
    Written (Option GoString) :=
  hostCall sbx owner
    (fun s o => h.globalMapGet s (contractName.getD []) (key.getD []) (field.getD []) o)
    Finish.getUnchecked

def goGlobalMapKeys (contractName key owner : Option GoString) : Written GoString :=
  hostCall sbx owner (fun s o => h.globalMapKeys s (contractName.getD []) (key.getD []) o)
    (Finish.keys marshal)

def goGlobalMapLen (contractName key owner : Option GoString) : Written UInt64 :=
  hostCall sbx owner (fun s o => h.globalMapLen s (contractName.getD []) (key.getD []) o)
    (Finish.answer sizeT)

end Bindings

end GoIost.V8
