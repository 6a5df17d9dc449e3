import Packrat.Directory
import Packrat.Main
import Packrat.Proofs.Checked
import Packrat.Proofs.Grammar.Compiled
import Packrat.Proofs.Parser.Attempt
import Packrat.Proofs.Parser.Unmemoised
import Packrat.Proofs.Grammar.FirstSymbols
import Packrat.Proofs.Parser.Memo
import Packrat.Proofs.Grammar.Derivation
import Packrat.Proofs.Parser.Sound
import Packrat.Proofs.Pattern.Renumber
import Packrat.Proofs.Pattern.Stable
import Packrat.Proofs.Pattern.Lexical
import Packrat.Proofs.Pattern.Sets
import Packrat.Proofs.Pattern.Steps
import Packrat.Proofs.Pattern.Runs
import Packrat.Proofs.Pattern.Within
import Packrat.Proofs.Pattern.Alternation
import Packrat.Proofs.Lexer.Dispatch
import Packrat.Proofs.Lexer.Accepted
import Packrat.Proofs.Lexer.Specs
import Packrat.Proofs.Pattern.Quoted
import Packrat.Proofs.Lexer.Strings
import Packrat.Proofs.Lexer.Direct
import Packrat.Proofs.Pattern.Greedy
import Packrat.Proofs.Lexer.Recognise
import Packrat.Proofs.Parser.Course
import Packrat.Proofs.Parser.Work
import Packrat.Proofs.Lexer.Literals
import Packrat.Proofs.Lexer.Reference
import Packrat.Proofs.Lexer.Positions
import Packrat.Proofs.Calc.Compiled
import Packrat.Proofs.Calc.Sound
import Packrat.Proofs.Calc.Complete
import Packrat.Proofs.Calc.Evaluate
import Packrat.Proofs.Grammar.Valid
import Packrat.Proofs.Grammar.Notation
import Packrat.Proofs.Parser.Mirror
import Packrat.Proofs.Parser.Rearranged
import Packrat.Proofs.Parser.Curtailed
import Packrat.Proofs.Parser.Softened
import Packrat.Proofs.Lexer.Failures
import Packrat.Proofs.Parser.Diagnostics
import Packrat.Proofs.Parser.Required
import Packrat.Proofs.Parser.Hard
import Packrat.Proofs.Parser.Furthest
import Packrat.Proofs.Parser.Local
import Packrat.Proofs.Lexer.Demand
import Packrat.Proofs.Lexer.Newlines
import Packrat.Proofs.Lexer.Escapes
import Packrat.Proofs.Lexer.Shadowed
import Packrat.Proofs.Parser.Lookahead
import Packrat.Proofs.Parser.Bounds
import Packrat.Proofs.Lexer.Lines
import Packrat.Proofs.Json.Decoding
