import MonkeySyntax.Proofs.Parser.Unread

/-!
# The grammar

The grammar says which tokens make up a program and which tree they stand for, without
running a parser.  `IsExpr tier ts e n rest` says that the tokens `ts` are those of the
expression `e`, which is of a tier, followed by the tokens `rest`, and the like is said of the
other constructs.

Expressions come in tiers.  The first four are made of operands of the next tier, with
operators between them that group to the left; then come the operators before an operand, the
calls, and the expressions that need no parentheses.

The number `n` is the nesting of a construct.  An expression without parts is nested to level
`1`.  What stands one level deeper is the operand on the right of an operator, the contents of
parentheses, an argument, and the condition and the statements of a choice or a function.
-/

namespace MonkeySyntax

/-- The kinds of the tokens that extend the expression on their left: the eight operators between
operands, and the parenthesis of a call. -/
def Kind.extendsExpr : Kind → Bool
  | .equal | .notEqual | .less | .greater | .plus | .minus | .asterisk | .slash => true
  | .leftParen => true
  | _ => false

/-- The kinds of the tokens that an expression starts with. -/
def Kind.startsExpr : Kind → Bool
  | .identifier | .integer | .trueWord | .falseWord => true
  | .bang | .minus | .leftParen | .ifWord | .functionWord => true
  | _ => false

/-- The kinds of the tokens that a statement starts with. -/
def Kind.startsStmt (kind : Kind) : Bool :=
  kind == .letWord || kind == .returnWord || kind.startsExpr

namespace Grammar

/-- The tiers of expressions, from the loosest to the tightest. -/
inductive Tier where
  | equality
  | relation
  | sum
  | product
  | unary
  | call
  | primary
deriving DecidableEq, Repr

namespace Tier

/-- The next tier.  There is none after the last one. -/
def tighter : Tier → Tier
  | equality => relation
  | relation => sum
  | sum => product
  | product => unary
  | unary => call
  | call => primary
  | primary => primary

/-- Whether a kind is that of an operator between operands in a tier. -/
def joins : Tier → Kind → Bool
  | equality, .equal | equality, .notEqual => true
  | relation, .less | relation, .greater => true
  | sum, .plus | sum, .minus => true
  | product, .asterisk | product, .slash => true
  | _, _ => false

end Tier

/-- Names with commas between them, after a name and up to the closing parenthesis. -/
inductive IsMoreParameters : List Token → List Ident → List Token → Prop
  | close {paren : Token} {rest : List Token} (hparen : paren.kind = .rightParen) :
      IsMoreParameters (paren :: rest) [] rest
  | cons {comma name : Token} {ts rest : List Token} {ids : List Ident}
      (hcomma : comma.kind = .comma) (hname : name.kind = .identifier)
      (hids : IsMoreParameters ts ids rest) :
      IsMoreParameters (comma :: name :: ts) (⟨name, name.text⟩ :: ids) rest

/-- Names with commas between them, up to the closing parenthesis. -/
inductive IsParameters : List Token → List Ident → List Token → Prop
  | close {paren : Token} {rest : List Token} (hparen : paren.kind = .rightParen) :
      IsParameters (paren :: rest) [] rest
  | cons {name : Token} {ts rest : List Token} {ids : List Ident}
      (hname : name.kind = .identifier) (hids : IsMoreParameters ts ids rest) :
      IsParameters (name :: ts) (⟨name, name.text⟩ :: ids) rest

mutual

/-- An expression of a tier. -/
inductive IsExpr : Tier → List Token → Expr → Nat → List Token → Prop
  | tighter {tier : Tier} {ts rest : List Token} {e : Expr} {n : Nat}
      (h : IsExpr tier.tighter ts e n rest) : IsExpr tier ts e n rest
  | binary {tier : Tier} {op : Token} {ts ts' rest : List Token} {left right : Expr} {m n : Nat}
      (hleft : IsExpr tier ts left m (op :: ts')) (hop : tier.joins op.kind = true)
      (hright : IsExpr tier.tighter ts' right n rest) :
      IsExpr tier ts (.binary op left op.text right) (max m (n + 1)) rest
  | unary {op : Token} {ts rest : List Token} {right : Expr} {n : Nat}
      (hop : op.kind = .bang ∨ op.kind = .minus) (hright : IsExpr .unary ts right n rest) :
      IsExpr .unary (op :: ts) (.unary op op.text right) (n + 1) rest
  | call {paren : Token} {ts ts' rest : List Token} {function : Expr} {arguments : List Expr}
      {m n : Nat} (hfunction : IsExpr .call ts function m (paren :: ts'))
      (hparen : paren.kind = .leftParen) (harguments : IsArguments ts' arguments n rest) :
      IsExpr .call ts (.call paren function arguments) (max m n) rest
  | name {t : Token} {rest : List Token} (ht : t.kind = .identifier) :
      IsExpr .primary (t :: rest) (.name ⟨t, t.text⟩) 1 rest
  | integer {t : Token} {rest : List Token} {value : Int} (ht : t.kind = .integer)
      (hvalue : Parse.integerValue? t.text = some value) :
      IsExpr .primary (t :: rest) (.integer t value) 1 rest
  | boolean {t : Token} {rest : List Token} (ht : t.kind = .trueWord ∨ t.kind = .falseWord) :
      IsExpr .primary (t :: rest) (.boolean t (t.kind == .trueWord)) 1 rest
  | group {paren close : Token} {ts rest : List Token} {e : Expr} {n : Nat}
      (hparen : paren.kind = .leftParen) (he : IsExpr .equality ts e n (close :: rest))
      (hclose : close.kind = .rightParen) : IsExpr .primary (paren :: ts) e (n + 1) rest
  | conditional {word paren close : Token} {ts ts' ts'' rest : List Token} {condition : Expr}
      {consequence : Block} {alternative : Option Block} {l m n : Nat}
      (hword : word.kind = .ifWord) (hparen : paren.kind = .leftParen)
      (hcondition : IsExpr .equality ts condition l (close :: ts'))
      (hclose : close.kind = .rightParen) (hconsequence : IsBlock ts' consequence m ts'')
      (halternative : IsAlternative ts'' alternative n rest) :
      IsExpr .primary (word :: paren :: ts) (.conditional word condition consequence alternative)
        (max l (max m n) + 1) rest
  | function {word paren : Token} {ts ts' rest : List Token} {ids : List Ident} {body : Block}
      {n : Nat} (hword : word.kind = .functionWord) (hparen : paren.kind = .leftParen)
      (hids : IsParameters ts ids ts') (hbody : IsBlock ts' body n rest) :
      IsExpr .primary (word :: paren :: ts) (.function word ids body) (n + 1) rest

/-- Expressions with commas between them, up to the closing parenthesis. -/
inductive IsArguments : List Token → List Expr → Nat → List Token → Prop
  | close {paren : Token} {rest : List Token} (hparen : paren.kind = .rightParen) :
      IsArguments (paren :: rest) [] 0 rest
  | cons {ts ts' rest : List Token} {e : Expr} {es : List Expr} {m n : Nat}
      (he : IsExpr .equality ts e m ts') (hes : IsMoreArguments ts' es n rest) :
      IsArguments ts (e :: es) (max (m + 1) n) rest

/-- Expressions with commas between them, after an expression and up to the closing
parenthesis. -/
inductive IsMoreArguments : List Token → List Expr → Nat → List Token → Prop
  | close {paren : Token} {rest : List Token} (hparen : paren.kind = .rightParen) :
      IsMoreArguments (paren :: rest) [] 0 rest
  | cons {comma : Token} {ts ts' rest : List Token} {e : Expr} {es : List Expr} {m n : Nat}
      (hcomma : comma.kind = .comma) (he : IsExpr .equality ts e m ts')
      (hes : IsMoreArguments ts' es n rest) :
      IsMoreArguments (comma :: ts) (e :: es) (max (m + 1) n) rest

/-- A statement.  An expression without a semicolon is one only before a token that does not
extend it. -/
inductive IsStmt : List Token → Stmt → Nat → List Token → Prop
  | binding {word name assign semicolon : Token} {ts rest : List Token} {value : Expr} {n : Nat}
      (hword : word.kind = .letWord) (hname : name.kind = .identifier)
      (hassign : assign.kind = .assign) (hvalue : IsExpr .equality ts value n (semicolon :: rest))
      (hsemicolon : semicolon.kind = .semicolon) :
      IsStmt (word :: name :: assign :: ts) (.binding word ⟨name, name.text⟩ value) n rest
  | returning {word semicolon : Token} {rest : List Token} (hword : word.kind = .returnWord)
      (hsemicolon : semicolon.kind = .semicolon) :
      IsStmt (word :: semicolon :: rest) (.returning word none) 0 rest
  | returningValue {word semicolon : Token} {ts rest : List Token} {value : Expr} {n : Nat}
      (hword : word.kind = .returnWord) (hvalue : IsExpr .equality ts value n (semicolon :: rest))
      (hsemicolon : semicolon.kind = .semicolon) :
      IsStmt (word :: ts) (.returning word (some value)) n rest
  | terminated {first semicolon : Token} {ts rest : List Token} {value : Expr} {n : Nat}
      (hvalue : IsExpr .equality (first :: ts) value n (semicolon :: rest))
      (hsemicolon : semicolon.kind = .semicolon) :
      IsStmt (first :: ts) (.expression first value) n rest
  | expression {first : Token} {ts rest : List Token} {value : Expr} {n : Nat}
      (hvalue : IsExpr .equality (first :: ts) value n rest)
      (hsemicolon : firstKind rest ≠ .semicolon) (hextends : (firstKind rest).extendsExpr = false) :
      IsStmt (first :: ts) (.expression first value) n rest

/-- Statements one after the other. -/
inductive IsStmts : List Token → List Stmt → Nat → List Token → Prop
  | nil {ts : List Token} : IsStmts ts [] 0 ts
  | cons {ts ts' rest : List Token} {s : Stmt} {ss : List Stmt} {m n : Nat}
      (hs : IsStmt ts s m ts') (hss : IsStmts ts' ss n rest) :
      IsStmts ts (s :: ss) (max m n) rest

/-- Statements between braces, of which the closing one may be missing at the very end. -/
inductive IsBlock : List Token → Block → Nat → List Token → Prop
  | closed {brace close : Token} {ts rest : List Token} {ss : List Stmt} {n : Nat}
      (hbrace : brace.kind = .leftBrace) (hss : IsStmts ts ss n (close :: rest))
      (hclose : close.kind = .rightBrace) : IsBlock (brace :: ts) (.mk brace ss) n rest
  | unclosed {brace : Token} {ts : List Token} {ss : List Stmt} {n : Nat}
      (hbrace : brace.kind = .leftBrace) (hss : IsStmts ts ss n []) :
      IsBlock (brace :: ts) (.mk brace ss) n []

/-- The second block of a choice, which may be missing. -/
inductive IsAlternative : List Token → Option Block → Nat → List Token → Prop
  | missing {ts : List Token} : IsAlternative ts none 0 ts
  | present {word : Token} {ts rest : List Token} {b : Block} {n : Nat}
      (hword : word.kind = .elseWord) (hb : IsBlock ts b n rest) :
      IsAlternative (word :: ts) (some b) n rest

end

/-- A program: statements up to the end. -/
def IsProgram (ts : List Token) (p : Program) (n : Nat) : Prop :=
  IsStmts ts p.statements n []

/-! ### First tokens -/

/-- An expression has a first token, and it is one that expressions start with. -/
theorem IsExpr.exists_first {tier : Tier} {ts rest : List Token} {e : Expr} {n : Nat} :
  IsExpr tier ts e n rest → ∃ t ts', ts = t :: ts' ∧ t.kind.startsExpr = true
  | .tighter h => h.exists_first
  | .binary hleft _ _ => hleft.exists_first
  | .call hfunction _ _ => hfunction.exists_first
  | .unary (.inl hop) _ => ⟨_, _, rfl, congrArg Kind.startsExpr hop⟩
  | .unary (.inr hop) _ => ⟨_, _, rfl, congrArg Kind.startsExpr hop⟩
  | .name ht => ⟨_, _, rfl, congrArg Kind.startsExpr ht⟩
  | .integer ht _ => ⟨_, _, rfl, congrArg Kind.startsExpr ht⟩
  | .boolean (.inl ht) => ⟨_, _, rfl, congrArg Kind.startsExpr ht⟩
  | .boolean (.inr ht) => ⟨_, _, rfl, congrArg Kind.startsExpr ht⟩
  | .group hparen _ _ => ⟨_, _, rfl, congrArg Kind.startsExpr hparen⟩
  | .conditional hword _ _ _ _ _ => ⟨_, _, rfl, congrArg Kind.startsExpr hword⟩
  | .function hword _ _ _ => ⟨_, _, rfl, congrArg Kind.startsExpr hword⟩

/-- The kind of the first token of an expression is one that expressions start with. -/
theorem IsExpr.firstKind_startsExpr {tier : Tier} {ts rest : List Token} {e : Expr} {n : Nat}
    (h : IsExpr tier ts e n rest) :
  (firstKind ts).startsExpr = true
  := by
  obtain ⟨t, ts', rfl, ht⟩ := h.exists_first
  apply ht

/-- The kind of the first token of a statement is one that statements start with. -/
theorem IsStmt.firstKind_startsStmt {ts rest : List Token} {s : Stmt} {n : Nat}
    (h : IsStmt ts s n rest) :
  (firstKind ts).startsStmt = true
  := by
  cases h with
  | binding hword => simp [hword, Kind.startsStmt]
  | returning hword => simp [hword, Kind.startsStmt]
  | returningValue hword => simp [hword, Kind.startsStmt]
  | terminated hvalue | expression hvalue =>
    have hfirst := hvalue.firstKind_startsExpr
    rw [firstKind_cons] at hfirst
    simp [hfirst, Kind.startsStmt]

/-- The tokens of statements start with a statement, or are those that follow. -/
theorem IsStmts.firstKind_eq_or {ts rest : List Token} {ss : List Stmt} {n : Nat}
    (h : IsStmts ts ss n rest) :
  firstKind ts = firstKind rest ∨ (firstKind ts).startsStmt = true
  := by
  cases h with
  | nil => exact .inl rfl
  | cons hs => exact .inr hs.firstKind_startsStmt

/-- A block starts with a brace. -/
theorem IsBlock.firstKind_eq {ts rest : List Token} {b : Block} {n : Nat}
    (h : IsBlock ts b n rest) :
  firstKind ts = .leftBrace
  := by
  cases h with
  | closed hbrace => apply hbrace
  | unclosed hbrace => apply hbrace

/-- After an argument there is a parenthesis or a comma. -/
theorem IsMoreArguments.firstKind_eq_or {ts rest : List Token} {es : List Expr} {n : Nat}
    (h : IsMoreArguments ts es n rest) :
  firstKind ts = .rightParen ∨ firstKind ts = .comma
  := by
  cases h with
  | close hparen => exact .inl hparen
  | cons hcomma => exact .inr hcomma

/-- Every expression is nested to some level. -/
theorem IsExpr.nesting_pos {tier : Tier} {ts rest : List Token} {e : Expr} {n : Nat} :
  IsExpr tier ts e n rest → 0 < n
  | .tighter h => h.nesting_pos
  | .binary _ _ _ => by omega
  | .unary _ _ => by omega
  | .call hfunction _ _ => by
    have hm := hfunction.nesting_pos
    omega
  | .name _ => Nat.one_pos
  | .integer _ _ => Nat.one_pos
  | .boolean _ => Nat.one_pos
  | .group _ _ _ => by omega
  | .conditional _ _ _ _ _ _ => by omega
  | .function _ _ _ _ => by omega

end Grammar

end MonkeySyntax
