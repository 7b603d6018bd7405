import Formula.Main
import Formula.Proofs.ExactEvaluation
import Formula.Proofs.NumbersInRange
import Formula.Proofs.Lexeme
import Formula.Proofs.LexicalGrammar
import Formula.Proofs.CanonicalForm
import Formula.Proofs.MovedSpans
import Formula.Proofs.PhraseSpans
import Formula.Proofs.Subexpressions
import Formula.Proofs.LayoutIndependence
import Formula.Proofs.ViablePrefix
import Formula.Proofs.Declarations
import Formula.Proofs.FailingNode
import Formula.Proofs.HostErrors
import Formula.Proofs.ErrorPlaces
import Formula.Proofs.LaterDeclarations
import Formula.Proofs.NamedSubexpression
import Formula.Proofs.HostCalls
import Formula.Proofs.SymbolTable
import Formula.Proofs.EqualNumbers
import Formula.Proofs.ConsoleLines
import Formula.Proofs.ConsoleSession
import Formula.Proofs.RootConvergence
import Formula.Proofs.RootAccuracy
import Formula.Proofs.PrintedTree
import Formula.Proofs.RequestedNames
import Formula.Proofs.OptionArguments
import Formula.Proofs.FrontEnds
import Formula.Proofs.RaisedErrors
import Formula.Proofs.RangeGate
import Formula.Proofs.EstimateAbove
import Formula.Proofs.PowerWords
import Formula.Proofs.FittingPowers
import Formula.Proofs.Division
import Formula.Proofs.RoundingCalls
import Formula.Proofs.ReadBack
import Formula.Proofs.DeclaredNames
import Formula.Proofs.PowerCalls
import Formula.Proofs.CallContract
import Formula.Proofs.DeclaredRows
import Formula.Proofs.RepeatedSquaring
import Formula.Proofs.RootGuess
import Formula.Proofs.Slices
import Formula.Proofs.DefaultContracts
import Formula.Proofs.BufferedProductions
import Formula.Proofs.LosslessScan
import Formula.Proofs.ResultScales
