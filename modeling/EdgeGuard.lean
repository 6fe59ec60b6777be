import EdgeGuard.Agent.AttemptDiscipline
import EdgeGuard.Agent.AttemptValidation
import EdgeGuard.Agent.CheckRequests
import EdgeGuard.Agent.ConfigConsumers
import EdgeGuard.Agent.DeviceIdentity
import EdgeGuard.Agent.DownloadResume
import EdgeGuard.Agent.FailureRecords
import EdgeGuard.Agent.ManifestGrammar
import EdgeGuard.Agent.RaucIdentity
import EdgeGuard.Agent.ResponseGate
import EdgeGuard.Agent.RunSafety
import EdgeGuard.Agent.StateFile
import EdgeGuard.Agent.UpdateCompletes
import EdgeGuard.Agent.VersionOrder
import EdgeGuard.HostApp.ManifestExchange
import EdgeGuard.HostApp.RangeAgreement
import EdgeGuard.HostApp.ReportAgreement
import EdgeGuard.Provisioning.AgentStatus
import EdgeGuard.Provisioning.Authorization
import EdgeGuard.Provisioning.ConnmanJudgement
import EdgeGuard.Provisioning.LongRead
import EdgeGuard.Provisioning.OperationResults
import EdgeGuard.Provisioning.PeerIsolation
import EdgeGuard.Provisioning.PhysicalPresence
import EdgeGuard.Provisioning.ProtocolDelivery
import EdgeGuard.Provisioning.ProtocolReassembly
import EdgeGuard.Provisioning.ProtocolReplay
import EdgeGuard.Provisioning.ProtocolTables
import EdgeGuard.Provisioning.ReconcileSchedule
import EdgeGuard.Provisioning.ResultRouting
import EdgeGuard.Provisioning.StableLink
import EdgeGuard.Provisioning.StoreGenerations
import EdgeGuard.Provisioning.StoreRecovery
import EdgeGuard.Provisioning.UpdateCheck
import EdgeGuard.Provisioning.ValueBounds
import EdgeGuard.RkAb.MutationRuns
import EdgeGuard.RkAb.Preinstall
import EdgeGuard.RkAb.RaucView
import EdgeGuard.RkAb.SlotConfirmation
