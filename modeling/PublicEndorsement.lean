import PublicEndorsement.BackupRecovery
import PublicEndorsement.AttestedDataKeys
import PublicEndorsement.EndorsementNoninterference
import PublicEndorsement.StatementRules
import PublicEndorsement.RotationResults
import PublicEndorsement.PolicyKeys
import PublicEndorsement.ReloadAtomicity
import PublicEndorsement.SignerCandidates
import PublicEndorsement.ClientReplies
import PublicEndorsement.AcceptorPool
import PublicEndorsement.SecondReply
import PublicEndorsement.InboundWaits
import PublicEndorsement.VsockAddress
import PublicEndorsement.JwksMaxAge
import PublicEndorsement.LedgerReceipts
import PublicEndorsement.PreloadModes
import PublicEndorsement.EndorsementCounters
import PublicEndorsement.TsaTokens
import PublicEndorsement.TsaPrivacy
