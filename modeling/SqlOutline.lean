import SqlOutline.Main
import SqlOutline.Proofs.Batch
import SqlOutline.Proofs.CaseBlock
import SqlOutline.Proofs.EventLog
import SqlOutline.Proofs.FaultPlace
import SqlOutline.Proofs.FinalFault
import SqlOutline.Proofs.FlatScan
import SqlOutline.Proofs.JsonReading
import SqlOutline.Proofs.LetterCase
import SqlOutline.Proofs.Literal
import SqlOutline.Proofs.Lossless
import SqlOutline.Proofs.NestingLimit
import SqlOutline.Proofs.Parentheses
import SqlOutline.Proofs.ParsePrint
import SqlOutline.Proofs.Placement
import SqlOutline.Proofs.PredicateLines
import SqlOutline.Proofs.PredicateSplit
import SqlOutline.Proofs.PutBack
import SqlOutline.Proofs.Quoting
import SqlOutline.Proofs.Rendering
import SqlOutline.Proofs.Segmentation
import SqlOutline.Proofs.SelfContained
import SqlOutline.Proofs.Significant
import SqlOutline.Proofs.Spacing
import SqlOutline.Proofs.Stepwise
import SqlOutline.Proofs.Termination
import SqlOutline.Proofs.TokenKind
import SqlOutline.Proofs.Unclosed
import SqlOutline.Proofs.Unfinished
import SqlOutline.Proofs.Vocabulary
import SqlOutline.Proofs.WellFormed
import SqlOutline.Statement.Reader
import SqlOutline.Token.Source
