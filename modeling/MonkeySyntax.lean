import MonkeySyntax.Main
import MonkeySyntax.Parser.Step
import MonkeySyntax.Source.CursorStep
import MonkeySyntax.Tree.Outline
import MonkeySyntax.Proofs.Parser.Conduct
import MonkeySyntax.Proofs.Parser.Unread
import MonkeySyntax.Proofs.Parser.Rounds
import MonkeySyntax.Proofs.Parser.Quiet
import MonkeySyntax.Proofs.Grammar.Basic
import MonkeySyntax.Proofs.Grammar.Strength
import MonkeySyntax.Proofs.Grammar.Completeness
import MonkeySyntax.Proofs.Grammar.Soundness
import MonkeySyntax.Proofs.Grammar.Acceptance
import MonkeySyntax.Proofs.Source.Spelling
import MonkeySyntax.Proofs.Grammar.Unparse
import MonkeySyntax.Proofs.Tree.Rendered
import MonkeySyntax.Proofs.Parser.Place
import MonkeySyntax.Proofs.RoundTrip
import MonkeySyntax.Proofs.Parser.Simulation
import MonkeySyntax.Proofs.Parser.Account
import MonkeySyntax.Proofs.Parser.Formation
import MonkeySyntax.Proofs.Parser.Stepping
import MonkeySyntax.Proofs.Parser.Containment
import MonkeySyntax.Proofs.Grammar.Braces
import MonkeySyntax.Proofs.Grammar.Pieces
import MonkeySyntax.Proofs.Grammar.Brackets
import MonkeySyntax.Proofs.Grammar.LastBrace
import MonkeySyntax.Proofs.Source.Tokenization
import MonkeySyntax.Proofs.Source.Layout
import MonkeySyntax.Proofs.Source.Newlines
import MonkeySyntax.Proofs.Source.Braces
import MonkeySyntax.Proofs.OpenBlocks
import MonkeySyntax.Proofs.Parser.Consumption
import MonkeySyntax.Proofs.Parser.Gives
import MonkeySyntax.Proofs.Tree.Marks
import MonkeySyntax.Proofs.Tree.Json
import MonkeySyntax.Proofs.Parser.Order
import MonkeySyntax.Proofs.Parser.Agreement
import MonkeySyntax.Proofs.CommandLine.Files
import MonkeySyntax.Proofs.Session.Entries
import MonkeySyntax.Proofs.Session.Toggles
import MonkeySyntax.Proofs.Session.Chunks
import MonkeySyntax.Proofs.Source.Concatenation
import MonkeySyntax.Proofs.Source.Stepping
import MonkeySyntax.Proofs.Tree.Chain
import MonkeySyntax.Proofs.Parser.Climbing
import MonkeySyntax.Proofs.Parser.Depth
import MonkeySyntax.Proofs.Tree.Plain
import MonkeySyntax.Proofs.Tree.Faithful
import MonkeySyntax.Proofs.Source.DigitRuns
import MonkeySyntax.Proofs.Source.Numerals
import MonkeySyntax.Proofs.Parser.Integers
import MonkeySyntax.Proofs.Parser.Reports
import MonkeySyntax.Proofs.CommandLine.Replies
