import GoIost.Common.Int64
import GoIost.Common.Except
import GoIost.BlockCache.Node
import GoIost.Consensus.Schedule
import GoIost.Consensus.Confirm
import GoIost.Consensus.Lib
import GoIost.Consensus.Block
import GoIost.Consensus.Theorems.Schedule
import GoIost.Consensus.Theorems.Confirm
import GoIost.Consensus.Theorems.Lib
import GoIost.Consensus.Theorems.Block
import GoIost.Consensus.Theorems.Finality
import GoIost.TxPool.Defer
import GoIost.TxPool.Ticker
import GoIost.TxPool.Theorems.Defer
import GoIost.TxPool.Theorems.Index
import GoIost.TxPool.Theorems.Ticker
import GoIost.P2p.Peer
import GoIost.P2p.Theorems.Peer
import GoIost.P2p.WriteLoop
import GoIost.P2p.Theorems.WriteLoop
import GoIost.P2p.Node
import GoIost.P2p.Theorems.Node
import GoIost.Host.Teller
import GoIost.Host.Theorems.Teller
import GoIost.Host.Theorems.CostMap
import GoIost.Host.Theorems.Conservation
import GoIost.V8.Storage
import GoIost.V8.Theorems.Storage
import GoIost.Rpc.Server
import GoIost.Rpc.Theorems.Server
import GoIost.Rpc.Query
import GoIost.Rpc.Theorems.Query
