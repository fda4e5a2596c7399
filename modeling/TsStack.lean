import TsStack.AirGap.Reception
import TsStack.Auth.GeneralDelivery
import TsStack.Auth.ImplicitPeer
import TsStack.Chaintracks.BulkChains
import TsStack.Chaintracks.BulkPartition
import TsStack.Chaintracks.BulkReadsDelivered
import TsStack.Chaintracks.BulkSelection
import TsStack.Chaintracks.CompactTarget
import TsStack.Chaintracks.InsertReports
import TsStack.Chaintracks.ReaderWriterLock
import TsStack.Gasp.NodeRecursion
import TsStack.Gasp.PullCompleteness
import TsStack.Knowledge.GroupReadiness
import TsStack.Mandala.DetailsRoundTrip
import TsStack.Mandala.OwnerIndexAgreement
import TsStack.Mandala.Refold
import TsStack.Overlay.AnchorCalls
import TsStack.Overlay.DeepDeletion
import TsStack.Overlay.SubmitRelations
import TsStack.Primitives.Base58Check
import TsStack.Primitives.ShamirRecovery
import TsStack.Primitives.SignatureHashCache
import TsStack.Script.Asm
import TsStack.Script.ChecksigAgreement
import TsStack.Script.ChecksigFormat
import TsStack.Script.SpendValidation
import TsStack.Templates.FieldRoundTrip
import TsStack.Topics.BTMSSupply
import TsStack.Topics.Bsv21
import TsStack.Transaction.Fee
import TsStack.Transaction.MerkleExtract
import TsStack.Wallet.BinaryJson
import TsStack.Wallet.ExpiryMerge
import TsStack.Wallet.ListingsAgree
import TsStack.Wallet.LockDiscipline
import TsStack.Wallet.MakeAvailable
import TsStack.Wallet.ProofWins
import TsStack.Wallet.StatusRuns
import TsStack.Wallet.SyncInterleaving
import TsStack.Wallet.WireError
import TsStack.WebRtPay.DirectPayDecisions
import TsStack.WebRtPay.HandshakeRuns
import TsStack.WebRtPay.ReplayCache
