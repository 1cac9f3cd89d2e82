import AcrossBridge.DepositSearch.BlockRange
import AcrossBridge.DepositSearch.Memo
import AcrossBridge.HubPool.Coverage
import AcrossBridge.HubPool.EvalBlock
import AcrossBridge.HubPool.Lookups
import AcrossBridge.HubPool.NthBundle
import AcrossBridge.HubPool.Run
import AcrossBridge.UBAFee.Calculator
