import Zofi.BitFlipRun
import Zofi.Campaign
import Zofi.Outputs
import Zofi.InitialStops
import Zofi.Resumption
import Zofi.Stopping
import Zofi.Cleanup
import Zofi.ThreadSet
import Zofi.InstructionPointer
import Zofi.Libraries
import Zofi.FailedAttempts
import Zofi.Seeds
import Zofi.TemporaryFiles
import Zofi.VectorExport
import Zofi.Operands
import Zofi.InstructionWindow
import Zofi.UnsupportedRegisters
import Zofi.OriginalState
import Zofi.DescribedEnds
import Zofi.CommandWords
import Zofi.MapsLines
import Zofi.ForcedRegister
import Zofi.FileComparison
import Zofi.ImportedArgument
import Zofi.OptionNumbers
import Zofi.PrintedTime
import Zofi.Totals
import Zofi.OutputNames
import Zofi.Substitution
import Zofi.WrappedDescriptions
import Zofi.ThreadDraw
import Zofi.TerminalDescriptors
import Zofi.ProgressDisplay
import Zofi.StateCleanup
import Zofi.WrappingEnds
import Zofi.OneChild
import Zofi.JobOrders
import Zofi.RegisterViews
import Zofi.FairDraws
import Zofi.OwnPipes
import Zofi.WholeCampaign
import Zofi.OutcomeTable
import Zofi.CsvFile
import Zofi.CampaignReport
import Zofi.UserComparison
import Zofi.Startup
import Zofi.PrintedOptions
