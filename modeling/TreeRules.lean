import TreeRules.Main
import TreeRules.Proofs.Check.Cutting
import TreeRules.Proofs.Check.Equality
import TreeRules.Proofs.Check.FullMatch
import TreeRules.Proofs.Check.Kinds
import TreeRules.Proofs.Check.Number
import TreeRules.Proofs.Check.NumberText
import TreeRules.Proofs.Check.OpenRange
import TreeRules.Proofs.Check.Opposites
import TreeRules.Proofs.Check.PatternKey
import TreeRules.Proofs.Check.Range
import TreeRules.Proofs.Check.Scientific
import TreeRules.Proofs.Check.Step
import TreeRules.Proofs.Document.Forest
import TreeRules.Proofs.Document.Growth
import TreeRules.Proofs.Document.RoundTrip
import TreeRules.Proofs.Document.Tree
import TreeRules.Proofs.Engine.Caching
import TreeRules.Proofs.Engine.Combination
import TreeRules.Proofs.Engine.Fallback
import TreeRules.Proofs.Engine.Live
import TreeRules.Proofs.Engine.Reading
import TreeRules.Proofs.Path.Closest
import TreeRules.Proofs.Path.Composition
import TreeRules.Proofs.Path.Faults
import TreeRules.Proofs.Path.RoundTrip
import TreeRules.Proofs.Path.Steps
import TreeRules.Proofs.Program.Routes
import TreeRules.Proofs.Program.Verdict
import TreeRules.Proofs.Report.Totals
import TreeRules.Proofs.Rule.Conversion
import TreeRules.Proofs.Rule.RoundTrip
import TreeRules.Proofs.Selector.Completeness
import TreeRules.Proofs.Selector.Matching
import TreeRules.Proofs.Selector.Shorthand
import TreeRules.Proofs.Selector.Union
import TreeRules.Proofs.Validator.History
