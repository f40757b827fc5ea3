import BlockScript.Main
import BlockScript.Proofs.Graph.Validity
import BlockScript.Proofs.Graph.Tree
import BlockScript.CommandLine.FileTree
import BlockScript.Proofs.Layout.Term
import BlockScript.Proofs.Builder.Grows
import BlockScript.Proofs.Outline.Draft
import BlockScript.Proofs.Layout.Phrase
import BlockScript.Proofs.Layout.Item
import BlockScript.Proofs.Layout.Draft
import BlockScript.Proofs.Builder.Link
import BlockScript.Proofs.Builder.Built
import BlockScript.Proofs.Builder.Finish
import BlockScript.Proofs.Compile.Run
import BlockScript.Proofs.Compile.Valid
import BlockScript.Proofs.Compile.Structure
import BlockScript.Proofs.Compile.Acceptance
import BlockScript.Proofs.Text.Nesting
import BlockScript.Proofs.Text.Groups
import BlockScript.Proofs.Phrase.Arithmetic
import BlockScript.Proofs.Text.Splitting
import BlockScript.Proofs.Text.Wrapping
import BlockScript.Proofs.Layout.Texts
import BlockScript.Proofs.Phrase.Kept
import BlockScript.Proofs.Vocabulary.Bytes
import BlockScript.Proofs.Vocabulary.Form
import BlockScript.Proofs.Compile.Brackets
import BlockScript.Proofs.Phrase.Typing
import BlockScript.Proofs.Layout.Typing
import BlockScript.Proofs.Compile.Typing
import BlockScript.Proofs.Text.TokenCuts
import BlockScript.Proofs.Expression.Words
import BlockScript.Proofs.Expression.Formula
import BlockScript.Proofs.Expression.Predicate
import BlockScript.Proofs.Expression.Condition
import BlockScript.Proofs.Builder.Faults
import BlockScript.Proofs.Outline.Reading
import BlockScript.Proofs.Builder.Refusal
import BlockScript.Proofs.Compile.Outcome
import BlockScript.Proofs.Layout.Renaming
import BlockScript.Proofs.Compile.Ids
import BlockScript.Proofs.Phrase.Operators
import BlockScript.Proofs.Phrase.Precedence
import BlockScript.Proofs.Phrase.Cuts
import BlockScript.Proofs.Phrase.Faults
import BlockScript.Proofs.Outline.Shift
import BlockScript.Proofs.Outline.Joining
import BlockScript.Proofs.Line.Joining
import BlockScript.Proofs.Compile.Joining
import BlockScript.Proofs.Builder.Agreement
import BlockScript.Proofs.Compile.Limit
import BlockScript.Proofs.Compile.Diagnosis
import BlockScript.Proofs.Text.Trim
import BlockScript.Proofs.Line.Kind
import BlockScript.Proofs.Vocabulary.Template
import BlockScript.Proofs.Vocabulary.Filling
import BlockScript.Proofs.Vocabulary.Composed
import BlockScript.Proofs.Vocabulary.Unambiguous
import BlockScript.Proofs.Graph.Subtree
import BlockScript.Proofs.Graph.Parents
import BlockScript.Proofs.Layout.Lines
import BlockScript.Proofs.Compile.Given
import BlockScript.Proofs.Compile.Messages
import BlockScript.Proofs.Compile.Conditions
import BlockScript.Proofs.Compile.Variables
import BlockScript.Proofs.Compile.Dropdown
import BlockScript.Proofs.Layout.Order
import BlockScript.Proofs.Compile.Drawn
import BlockScript.Proofs.Graph.Encoding
import BlockScript.Proofs.Compile.Encoding
import BlockScript.Proofs.Text.Parts
import BlockScript.Proofs.Phrase.Faithful
import BlockScript.Proofs.Compile.References
import BlockScript.Proofs.Outline.Relocation
import BlockScript.Proofs.Line.Numbered
import BlockScript.Proofs.Compile.Placement
import BlockScript.Proofs.Vocabulary.Exchange
import BlockScript.Proofs.Compile.Quotes
import BlockScript.Proofs.Phrase.Layers
import BlockScript.Proofs.Layout.Depth
import BlockScript.Proofs.Compile.Depth
import BlockScript.Proofs.Graph.Sequence
import BlockScript.Proofs.Names.Table
import BlockScript.Proofs.Names.Document
import BlockScript.Proofs.Text.Pairs
import BlockScript.Proofs.Text.WordCuts
