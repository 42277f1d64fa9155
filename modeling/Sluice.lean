import Sluice.Engine.Session
import Sluice.Saved.Bindings
import Sluice.Saved.Expr
import Sluice.Proofs.KeyOrder
import Sluice.Proofs.Nesting
import Sluice.Proofs.PlainText
import Sluice.Proofs.Printing
import Sluice.Proofs.Remembering
import Sluice.Proofs.Termination
import Sluice.Proofs.TemplateBodies
import Sluice.Proofs.Carrying
import Sluice.Proofs.Following
import Sluice.Proofs.Completing
import Sluice.Proofs.Embedding
import Sluice.Proofs.Parts
import Sluice.Proofs.CallTexts
import Sluice.Proofs.Casts
import Sluice.Proofs.Results
import Sluice.Proofs.StageCalls
import Sluice.Proofs.Lexicon
import Sluice.Proofs.Tokenizing
import Sluice.Proofs.Walking
import Sluice.Proofs.Respacing
import Sluice.Proofs.Refusals
import Sluice.Proofs.StageFailures
import Sluice.Proofs.Containment
import Sluice.Proofs.Leaves
import Sluice.Proofs.Secrecy
import Sluice.Proofs.Floats
import Sluice.Proofs.JsonAtoms
import Sluice.Proofs.JsonReading
import Sluice.Proofs.RoundTrip
import Sluice.Proofs.SavedTexts
import Sluice.Proofs.Brackets
import Sluice.Proofs.PathTexts
import Sluice.Proofs.StableSort
import Sluice.Proofs.Unquoting
import Sluice.Proofs.CallFailures
import Sluice.Proofs.OperatorCalls
import Sluice.Proofs.StoredPaths
import Sluice.Proofs.Identity
import Sluice.Proofs.PathSegments
import Sluice.Proofs.Flattening
import Sluice.Proofs.Slicing
import Sluice.Proofs.FilterFusion
import Sluice.Proofs.WellFormedness
import Sluice.Proofs.Uniqueness
import Sluice.Proofs.PatternShapes
import Sluice.Proofs.RootPath
import Sluice.Proofs.FieldNames
import Sluice.Proofs.NumberedKeys
import Sluice.Proofs.QuotedTemplates
import Sluice.Proofs.ErrorPositions
import Sluice.Proofs.FieldTables
import Sluice.Proofs.LiteralKeys
import Sluice.Proofs.LastWrites
import Sluice.Proofs.Projections
import Sluice.Proofs.TextOperands
import Sluice.Proofs.ByteOffsets
