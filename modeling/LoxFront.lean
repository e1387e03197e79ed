import LoxFront.Main
import LoxFront.Parse.Call
import LoxFront.Parse.Run
import LoxFront.Proofs.Parse.Adequacy
import LoxFront.Proofs.Parse.FirstError
import LoxFront.Source.Call
import LoxFront.Proofs.Source.Lines
import LoxFront.Proofs.Source.Meaning
import LoxFront.Proofs.Source.Concatenation
import LoxFront.Proofs.Source.Rescan
import LoxFront.Proofs.Parse.Outline
import LoxFront.Proofs.Parse.Lookahead
import LoxFront.Proofs.Source.Faultless
import LoxFront.Proofs.FrontEnd
import LoxFront.Proofs.Session.Reports
import LoxFront.Proofs.Expr.Printing
import LoxFront.Proofs.Grammar.Embedding
import LoxFront.Proofs.Parse.Whole
import LoxFront.Proofs.Session.Operation
import LoxFront.Proofs.Console.Prompt
import LoxFront.Proofs.Console.Sources
import LoxFront.Proofs.Binary64.Spelling
import LoxFront.Proofs.Expr.Readability
import LoxFront.Proofs.Expr.Wording
import LoxFront.Proofs.Source.Restart
import LoxFront.Proofs.Parse.Record
import LoxFront.Proofs.Parse.Levels
import LoxFront.Proofs.Parse.TooDeep
import LoxFront.Proofs.Parse.Limit
import LoxFront.Proofs.Source.LineEndings
import LoxFront.Proofs.Binary64.Ranks
import LoxFront.Proofs.Binary64.Rounding
import LoxFront.Proofs.Binary64.Numeral
import LoxFront.Proofs.Binary64.Value
import LoxFront.Proofs.Binary64.Shortest
import LoxFront.Proofs.Source.Numerals
import LoxFront.Proofs.Parse.Allowance
import LoxFront.Proofs.Parse.Elsewhere
import LoxFront.Proofs.Parse.MissingValues
import LoxFront.Proofs.Parse.Boundaries
import LoxFront.Proofs.Parse.Calls
import LoxFront.Proofs.Parse.Resuming
import LoxFront.Proofs.Parse.Indexed
import LoxFront.Proofs.Parse.OpenRules
import LoxFront.Proofs.Source.IndexedCalls
