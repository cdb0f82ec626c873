import TxWorkload.Main
import TxWorkload.Proofs.Account.Pairing
import TxWorkload.Proofs.Account.PrivateKeys
import TxWorkload.Proofs.Activity.Burst
import TxWorkload.Proofs.Activity.Failover
import TxWorkload.Proofs.Activity.Height
import TxWorkload.Proofs.Activity.Readiness
import TxWorkload.Proofs.Activity.Secrecy
import TxWorkload.Proofs.Activity.Watch
import TxWorkload.Proofs.Config.Keys
import TxWorkload.Proofs.Routine.Select
import TxWorkload.Proofs.Rpc.Backoff
import TxWorkload.Proofs.Rpc.Series
import TxWorkload.Proofs.Rpc.Trial
import TxWorkload.Proofs.Stats.Callers
import TxWorkload.Proofs.Transaction.Encoding
import TxWorkload.Proofs.Transaction.Proportion
import TxWorkload.Proofs.Uptime
import TxWorkload.Proofs.Workload.Promptness
import TxWorkload.Proofs.Workload.Safety
import TxWorkload.Proofs.Workload.Watermark
import TxWorkload.Random.SplitMix
