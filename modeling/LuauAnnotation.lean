import LuauAnnotation.Bracket.Json
import LuauAnnotation.Main
import LuauAnnotation.Settings.Directory
import LuauAnnotation.Proofs.Balance
import LuauAnnotation.Proofs.Lexeme
import LuauAnnotation.Proofs.Reading
import LuauAnnotation.Proofs.Tokenizing
import LuauAnnotation.Proofs.Legibility
import LuauAnnotation.Proofs.RoundTrip
import LuauAnnotation.Proofs.Survival
import LuauAnnotation.Proofs.Grammar
import LuauAnnotation.Proofs.Convergence
import LuauAnnotation.Proofs.FirstFault
import LuauAnnotation.Proofs.JsonString
import LuauAnnotation.Proofs.JsonNumeral
import LuauAnnotation.Proofs.JsonReader
import LuauAnnotation.Proofs.JsonGrammar
import LuauAnnotation.Proofs.SettingsJson
import LuauAnnotation.Proofs.TokenJson
import LuauAnnotation.Proofs.Composition
import LuauAnnotation.Proofs.TextForm
import LuauAnnotation.Proofs.InputLines
import LuauAnnotation.Proofs.Alike
import LuauAnnotation.Proofs.Skeleton
import LuauAnnotation.Proofs.Spacing
import LuauAnnotation.Proofs.Commas
import LuauAnnotation.Proofs.QuotedFault
import LuauAnnotation.Proofs.Levels
import LuauAnnotation.Proofs.OutputLines
import LuauAnnotation.Proofs.Pieces
import LuauAnnotation.Proofs.ByteOffsets
import LuauAnnotation.Proofs.Repetition
import LuauAnnotation.Proofs.BalancedPrefix
import LuauAnnotation.Proofs.Chains
