import ScreenFlow.CorrelationId
import ScreenFlow.Json.Reader
import ScreenFlow.Main
import ScreenFlow.Proofs.Cancellation
import ScreenFlow.Proofs.Chain
import ScreenFlow.Proofs.Completion
import ScreenFlow.Proofs.Counting
import ScreenFlow.Proofs.CutShort
import ScreenFlow.Proofs.Decision
import ScreenFlow.Proofs.Driving
import ScreenFlow.Proofs.Dropping
import ScreenFlow.Proofs.Faults
import ScreenFlow.Proofs.Freezing
import ScreenFlow.Proofs.Limits
import ScreenFlow.Proofs.Linear
import ScreenFlow.Proofs.Mirror
import ScreenFlow.Proofs.NoReturn
import ScreenFlow.Proofs.Rearming
import ScreenFlow.Proofs.Reports
import ScreenFlow.Proofs.Saving
import ScreenFlow.Proofs.Schedule
import ScreenFlow.Proofs.Scheduling
import ScreenFlow.Proofs.ServiceTokens
import ScreenFlow.Settings.Json
import ScreenFlow.Proofs.Nearest
import ScreenFlow.Proofs.Numerals
import ScreenFlow.Proofs.Replay
import ScreenFlow.Proofs.Meanings
import ScreenFlow.Proofs.Overriding
