import LogicLess.Registry
import LogicLess.Store
import LogicLess.Proofs.Program.Meaning
import LogicLess.Proofs.Render.Indentation
import LogicLess.Proofs.Token.LiteralText
import LogicLess.Proofs.Token.Printing
import LogicLess.Proofs.Token.Nodes
import LogicLess.Proofs.Render.Escaping
import LogicLess.Proofs.Tag.Surroundings
import LogicLess.Proofs.Tag.Scan
import LogicLess.Proofs.Lexeme.Outline
import LogicLess.Proofs.Tag.Nested
import LogicLess.Proofs.Token.Sections
import LogicLess.Proofs.Token.Structure
import LogicLess.Proofs.Token.RawText
import LogicLess.Proofs.Token.ChangeLine
import LogicLess.Proofs.Render.Termination
import LogicLess.Proofs.Render.Marker
import LogicLess.Proofs.Registry.Session
import LogicLess.Proofs.Render.Discipline
import LogicLess.Proofs.Token.Paths
import LogicLess.Proofs.Render.Agreement
import LogicLess.Proofs.Render.Calls
import LogicLess.Proofs.Render.Inlining
import LogicLess.Proofs.Program.Preorder
import LogicLess.Proofs.Program.Image
import LogicLess.Proofs.Slice
import LogicLess.Proofs.Tag.InForce
import LogicLess.Proofs.Diagnostic.Pointer
import LogicLess.Proofs.Token.FaultPlace
import LogicLess.Proofs.Token.Spans
import LogicLess.Proofs.Render.PlainText
import LogicLess.Proofs.Render.Writing
import LogicLess.Proofs.Render.Complement
import LogicLess.Proofs.Token.Progress
import LogicLess.Proofs.Program.LineMarks
import LogicLess.Proofs.Value.Order
import LogicLess.Proofs.Render.EntryOrder
import LogicLess.Proofs.Diagnostic.Caret
import LogicLess.Proofs.Lexeme.Locality
import LogicLess.Proofs.Token.Spacing
