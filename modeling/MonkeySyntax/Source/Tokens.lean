import MonkeySyntax.Source.Cursor
import MonkeySyntax.Token.Stream

/-!
# The tokens of a source

`tokenize` lists the tokens of a source up to and with the end of the input, and
`TokenStream.ofSource` is the stream of these tokens.
-/

namespace MonkeySyntax

namespace Cursor

/-- The tokens from a cursor on, put behind tokens read before, which come newest first. -/
def tokensAfter (read : List Token) (c : Cursor) : List Token :=
  if _h : c.next.1.kind = .endOfInput then
    (c.next.1 :: read).reverse
  else
    tokensAfter (c.next.1 :: read) c.next.2
termination_by c.rest.length
decreasing_by exact length_rest_next_lt ‹_›

/-- The tokens from a cursor on, up to and with the end of the input. -/
def tokens (c : Cursor) : List Token :=
  c.tokensAfter []

/-- The loop puts the tokens that it has read before those to come. -/
theorem tokensAfter_eq (read : List Token) (c : Cursor) :
  c.tokensAfter read = read.reverse ++ c.tokens
  := by
  generalize hn : c.rest.length = n
  induction n using Nat.strongRecOn generalizing c read with
  | ind n ih =>
    subst hn
    rw [tokens, tokensAfter.eq_def read c, tokensAfter.eq_def [] c]
    split
    · simp
    · rename_i h
      have hlt := length_rest_next_lt h
      rw [ih _ hlt _ _ rfl, ih _ hlt [c.next.1] _ rfl]
      simp

/-- The tokens from a cursor on are its next token and the tokens from there on. -/
theorem tokens_eq (c : Cursor) :
  c.tokens = if c.next.1.kind = .endOfInput then [c.next.1] else c.next.1 :: c.next.2.tokens
  := by
  rw [tokens, tokensAfter]
  split
  · rfl
  · rw [tokensAfter_eq]
    rfl

end Cursor

/-- The tokens of a source, of which the last one is the end of the input. -/
def tokenize (source : String) : List Token :=
  (Cursor.ofSource source).tokens

/-- The stream of the tokens of a source.  It ends at the length of the source. -/
def TokenStream.ofSource (source : String) : TokenStream :=
  ⟨tokenize source, source.length⟩

end MonkeySyntax
