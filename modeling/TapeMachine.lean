import TapeMachine.Cancellation
import TapeMachine.Files.FileTree
import TapeMachine.Main
import TapeMachine.Program.Json
import TapeMachine.Table.Writer
import TapeMachine.Proofs.OccupiedCells
import TapeMachine.Proofs.StepSpec
import TapeMachine.Proofs.Course
import TapeMachine.Proofs.RunSpec
import TapeMachine.Proofs.Textbook
import TapeMachine.Proofs.Limits
import TapeMachine.Proofs.Repetition
import TapeMachine.Proofs.Passages
import TapeMachine.Proofs.AllOrNothing
import TapeMachine.Proofs.Accounting
import TapeMachine.Proofs.RunJournal
import TapeMachine.Proofs.ProgramMap
import TapeMachine.Proofs.Safety
import TapeMachine.Proofs.Reachability
import TapeMachine.Proofs.TerminalRow
import TapeMachine.Proofs.ProgramJson
import TapeMachine.Proofs.BareStates
import TapeMachine.Proofs.Construction
import TapeMachine.Proofs.TableCells
import TapeMachine.Proofs.TableGrammar
import TapeMachine.Proofs.FieldSpec
import TapeMachine.Proofs.FieldDivision
import TapeMachine.Proofs.TableReread
import TapeMachine.Proofs.TrailingSection
import TapeMachine.Proofs.Tripling
import TapeMachine.Proofs.Interruption
import TapeMachine.Proofs.ShownRun
import TapeMachine.Proofs.InferredAlphabet
import TapeMachine.Proofs.Translation
import TapeMachine.Proofs.WrittenBlanks
import TapeMachine.Proofs.RenderedTape
import TapeMachine.Proofs.TapeText
import TapeMachine.Proofs.RuleBook
import TapeMachine.Proofs.Increment
import TapeMachine.Proofs.Addition
import TapeMachine.Proofs.DecodedText
import TapeMachine.Proofs.TableLayout
import TapeMachine.Proofs.ConfigJson
import TapeMachine.Proofs.DirectoryLoading
import TapeMachine.Proofs.Bindings
