import EnumTags.Declaration
import EnumTags.Diagnosis
import EnumTags.Emission
import EnumTags.Expansion
import EnumTags.Grammar.AttributeRules
import EnumTags.Grammar.BlockRules
import EnumTags.Grammar.Expr
import EnumTags.Grammar.FunctionRules
import EnumTags.Grammar.GenericRules
import EnumTags.Grammar.Generics
import EnumTags.Grammar.Item
import EnumTags.Grammar.ItemRules
import EnumTags.Grammar.Keyword
import EnumTags.Grammar.MemberRules
import EnumTags.Grammar.OperandRules
import EnumTags.Grammar.OperatorRules
import EnumTags.Grammar.Parser
import EnumTags.Grammar.PathRules
import EnumTags.Grammar.PatternRules
import EnumTags.Grammar.Reader
import EnumTags.Grammar.Rules
import EnumTags.Grammar.SyntaxError
import EnumTags.Grammar.Type
import EnumTags.Grammar.TypeRules
import EnumTags.Options
import EnumTags.Outline.Basic
import EnumTags.Outline.OfItem
import EnumTags.Outline.Search
import EnumTags.Payload
import EnumTags.Plan
import EnumTags.Proofs.Acceptance
import EnumTags.Proofs.AliasNumbering
import EnumTags.Proofs.AliasParameters
import EnumTags.Proofs.AliasTargets
import EnumTags.Proofs.Ancestors
import EnumTags.Proofs.CamelCase
import EnumTags.Proofs.CarriedNames
import EnumTags.Proofs.Checks
import EnumTags.Proofs.Clashes
import EnumTags.Proofs.Compaction
import EnumTags.Proofs.Diagnoses
import EnumTags.Proofs.DisplayedTokens
import EnumTags.Proofs.EnumEmission
import EnumTags.Proofs.EnumGeneration
import EnumTags.Proofs.EnumOutline
import EnumTags.Proofs.EnumReading
import EnumTags.Proofs.Extraction
import EnumTags.Proofs.FunctionReading
import EnumTags.Proofs.ItemReading
import EnumTags.Proofs.Layout
import EnumTags.Proofs.Links
import EnumTags.Proofs.Literals
import EnumTags.Proofs.Mirror
import EnumTags.Proofs.ModuleNames
import EnumTags.Proofs.Names
import EnumTags.Proofs.NoteColumns
import EnumTags.Proofs.OptionReading
import EnumTags.Proofs.PathReading
import EnumTags.Proofs.PlainTypes
import EnumTags.Proofs.Preorder
import EnumTags.Proofs.Reading
import EnumTags.Proofs.References
import EnumTags.Proofs.Relexing
import EnumTags.Proofs.Search
import EnumTags.Proofs.SnakeCase
import EnumTags.Proofs.Squeezing
import EnumTags.Proofs.Subtrees
import EnumTags.Proofs.Suggestions
import EnumTags.Proofs.TypeReading
import EnumTags.Proofs.TypeRoundTrip
import EnumTags.Proofs.WholeLiterals
import EnumTags.Rejection
import EnumTags.Text.Basic
import EnumTags.Text.LetterCase
import EnumTags.Text.Quoted
import EnumTags.Text.WordChar
import EnumTags.Token.Basic
import EnumTags.Token.Compact
import EnumTags.Token.Lexer
import EnumTags.Token.Literal
import EnumTags.Token.Number
import EnumTags.Token.Template
import EnumTags.Token.Trivia
