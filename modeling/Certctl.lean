import Certctl.ScepMessages
import Certctl.ApprovalGateRuns
import Certctl.RenewalGates
import Certctl.RevokedCertificates
import Certctl.JobDispatch
import Certctl.JobRetries
import Certctl.CaPathLength
import Certctl.CaNameConstraints
import Certctl.CaRetirement
import Certctl.AuditRecording
import Certctl.AuditTampering
import Certctl.AuditTransactions
import Certctl.AcmeReadyOrders
import Certctl.AcmeIssuedNames
import Certctl.AcmeNonceUse
import Certctl.AcmeProfileBinding
import Certctl.AcmeExpiry
import Certctl.LimiterInstances
import Certctl.EstLockout
import Certctl.OcspLookupFaults
import Certctl.CsrfRotation
import Certctl.BreakglassLockout
import Certctl.ApprovalDecisions
import Certctl.DeployWithoutBackups
import Certctl.ExpiryAlerts
import Certctl.IntuneReplay
import Certctl.EnrollmentPolicy
import Certctl.DashboardCounts
import Certctl.FederatedRoles
import Certctl.BackChannelLogout
import Certctl.DeviceBinding
import Certctl.IssuerRegistry
import Certctl.SchedulerLoops
import Certctl.StoredSecrets
import Certctl.CrlNumbers
