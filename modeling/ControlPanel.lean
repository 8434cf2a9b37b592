import ControlPanel.Calendar.Iso
import ControlPanel.Main
import ControlPanel.Proofs.Additions
import ControlPanel.Proofs.Allocation
import ControlPanel.Proofs.AppendOrder
import ControlPanel.Proofs.DiscreetLogs
import ControlPanel.Proofs.Durations
import ControlPanel.Proofs.EpochCounts
import ControlPanel.Proofs.FailedCalls
import ControlPanel.Proofs.FeatureIdentity
import ControlPanel.Proofs.HiddenMembers
import ControlPanel.Proofs.Histories
import ControlPanel.Proofs.MailUrls
import ControlPanel.Proofs.Masking
import ControlPanel.Proofs.NameLookup
import ControlPanel.Proofs.NewerRecords
import ControlPanel.Proofs.PendingWrites
import ControlPanel.Proofs.Polling
import ControlPanel.Proofs.Recording
import ControlPanel.Proofs.Repetition
import ControlPanel.Proofs.Sampling
import ControlPanel.Proofs.Schedules
import ControlPanel.Proofs.SeparateFeatures
import ControlPanel.Proofs.Sessions
import ControlPanel.Tracker
