import MonkeySyntax.Token.Basic

/-!
# Token streams

A `TokenStream` is a finite list of tokens followed by the same end-of-input token for
ever.  Tokens of kind `endOfInput` may also stand within the list.  `get i` is the token
at index `i`, `drop n` the stream without its first `n` tokens, and dropping shifts the
indices: `(s.drop n).get i = s.get (n + i)`.
-/

namespace MonkeySyntax

/-- A list of tokens, then the end of the input, met at offset `stop`, for ever. -/
structure TokenStream where
  tokens : List Token
  stop : Int := 0
deriving DecidableEq, Repr, Inhabited

namespace TokenStream

/-- The stream of a list, with the end of the input at offset `0`. -/
def ofList (tokens : List Token) : TokenStream :=
  ⟨tokens, 0⟩

/-- The token at an index. -/
def get (s : TokenStream) (i : Nat) : Token :=
  s.tokens[i]?.getD (Token.endAt s.stop)

/-- The stream without its first tokens. -/
def drop (s : TokenStream) (n : Nat) : TokenStream :=
  { s with tokens := s.tokens.drop n }

/-- The first token. -/
def head (s : TokenStream) : Token :=
  s.tokens.headD (Token.endAt s.stop)

/-- The stream without its first token. -/
def tail (s : TokenStream) : TokenStream :=
  { s with tokens := s.tokens.tail }

theorem get_zero (s : TokenStream) :
  s.get 0 = s.head
  := by
  simp [get, head, List.headD_eq_head?_getD, List.head?_eq_getElem?]

theorem drop_one (s : TokenStream) :
  s.drop 1 = s.tail
  := by
  simp [drop, tail]

@[simp]
theorem drop_zero (s : TokenStream) :
  s.drop 0 = s
  := rfl

/-- Tokens dropped one after the other are dropped together. -/
@[simp]
theorem drop_drop (s : TokenStream) (m n : Nat) :
  (s.drop m).drop n = s.drop (m + n)
  := by
  simp [drop]

/-- The tokens after some are those of the stream, as many further on. -/
@[simp]
theorem get_drop (s : TokenStream) (n i : Nat) :
  (s.drop n).get i = s.get (n + i)
  := by
  simp [drop, get]

/-- Past the list there is only the end of the input. -/
theorem get_of_length_le {s : TokenStream} {i : Nat} (h : s.tokens.length ≤ i) :
  s.get i = Token.endAt s.stop
  := by
  simp [get, h]

end TokenStream

end MonkeySyntax
