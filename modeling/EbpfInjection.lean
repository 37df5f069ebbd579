import EbpfInjection.TransitionSystem
import EbpfInjection.ResourceLedger
import EbpfInjection.LittleEndian
import EbpfInjection.MappedWords
import EbpfInjection.InjectionMessage
import EbpfInjection.HelperFixup
import EbpfInjection.ProgramSetup
import EbpfInjection.ProgramLifecycle
import EbpfInjection.SectionSelection
import EbpfInjection.InjectionRoundTrip
import EbpfInjection.CircularList
import EbpfInjection.FreePageReport
import EbpfInjection.GuardedMemory
import EbpfInjection.ZoneLocking
import EbpfInjection.InjectionMachine
import EbpfInjection.LatestMessage
import EbpfInjection.MessageIntegrity
import EbpfInjection.ReportInterference
import EbpfInjection.ReportProgress
import EbpfInjection.ReportDoorbell
import EbpfInjection.ReportDelivery
import EbpfInjection.LastInjection
import EbpfInjection.PacedInjection
import EbpfInjection.DriverLifetime
import EbpfInjection.LiveState
import EbpfInjection.AffinityLog
import EbpfInjection.AffinityRace
import EbpfInjection.ResourceBalance
import EbpfInjection.HelperWhitelist
import EbpfInjection.SetupOutcome
import EbpfInjection.MessageAcceptance
import EbpfInjection.ReportBounds
import EbpfInjection.ZoneArrays
import EbpfInjection.MessagePayload
import EbpfInjection.MessageWriter
import EbpfInjection.Refinement
import EbpfInjection.HelperExecution
import EbpfInjection.InjectedExecution
import EbpfInjection.BoundedWork
import EbpfInjection.ActivationBudget
import EbpfInjection.InjectionDelivery
import EbpfInjection.AffinityLinearization
import EbpfInjection.AffinityCounting
import EbpfInjection.InjectionOrder
