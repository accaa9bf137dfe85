import MonkeySyntax.Proofs.Parser.Order
import MonkeySyntax.Proofs.Source.Layout
import MonkeySyntax.Proofs.Tree.Json
import MonkeySyntax.Proofs.Tree.Rendered

/-!
# Streams that agree

Layout makes no difference to a parse: sources that differ in layout only have the same tokens but
for their places, and streams whose tokens have the same kinds and texts give the same diagnostics
and the same tree, but for the places of its tokens.  It does not matter in which way the tokens
are given: as a list, of which the end may be written out or not, or read from a source one by
one.
-/

namespace MonkeySyntax

namespace TokenStream

variable {s s' : TokenStream}

/-- The tokens of a stream have the kinds and the texts of those of another. -/
def Agrees (s s' : TokenStream) : Prop :=
  ∀ i, (s.get i).kind = (s'.get i).kind ∧ (s.get i).text = (s'.get i).text

/-- Streams that agree are the same without places. -/
theorem Agrees.unplaced_get (h : s.Agrees s') (i : Nat) :
  s.unplaced.get i = s'.unplaced.get i
  := by
  rw [get_unplaced, get_unplaced, Token.unplaced_eq_iff]
  apply h i

/-- Streams that agree give the same diagnostics, and the same program but for places. -/
theorem Agrees.parseStream_eq (h : s.Agrees s') :
  (parseStream s).diagnostics = (parseStream s').diagnostics ∧
    (parseStream s).program.unplaced = (parseStream s').program.unplaced
  := by
  have hparse := parseStream_congr h.unplaced_get
  rw [parseStream_unplaced, parseStream_unplaced, Parsed.mk.injEq] at hparse
  exact ⟨hparse.2, hparse.1⟩

/-- Streams of the same list agree, wherever they end.  No token of a program comes after the list.
-/
theorem parseStream_eq_of_tokens (h : s.tokens = s'.tokens) :
  parseStream s = parseStream s'
  := by
  have hunplaced : s.unplaced = s'.unplaced := by rw [unplaced, unplaced, h]
  rw [parseStream_eq_placing hunplaced, parseStream_eq_placing (s := s') rfl, Parsed.mk.injEq]
  refine ⟨?_, rfl⟩
  apply Program.mapTokens_congr
  intro m hm
  obtain ⟨ht, -⟩ := (Program.isFormed_parseStream s'.numbered).isProper m hm
  obtain ⟨hlt, -⟩ := exists_of_mem_numbered ht
  have hget : s.get m.value.index = s'.get m.value.index := by
    rw [get, get, h, List.getElem?_eq_getElem hlt, Option.getD_some, Option.getD_some]
  simp only [placing, hget]

end TokenStream

/-- Sources of the same tokens, but for their places, agree. -/
theorem agrees_ofSource {source source' : String}
    (h : (tokenize source).map Token.unplaced = (tokenize source').map Token.unplaced) :
  (TokenStream.ofSource source).Agrees (.ofSource source')
  := by
  intro i
  rw [← Token.unplaced_eq_iff]
  apply TokenStream.unplaced_get_of_unplaced
  exact congrArg (fun ts => TokenStream.mk ts 0) h

/-- Layout makes no difference: sources that differ in layout only have the same tokens, give the
same diagnostics and the same program but for places, and so the same text and the same JSON.  More
generally all streams that agree give the same; among them are the tokens that are read from a
source one by one, and the list of these tokens, which gives the same with its places. -/
theorem parse_relaid :
  (∀ source source' : String, Relation.ReflTransGen Relaid source source' →
    (tokenize source').map Token.unplaced = (tokenize source).map Token.unplaced ∧
      (parse source').diagnostics = (parse source).diagnostics ∧
      (parse source').program.unplaced = (parse source).program.unplaced ∧
      (parse source').program.render = (parse source).program.render ∧
      (parse source').program.toJson = (parse source).program.toJson) ∧
  (∀ s s' : TokenStream, s.Agrees s' →
    (parseStream s).diagnostics = (parseStream s').diagnostics ∧
      (parseStream s).program.unplaced = (parseStream s').program.unplaced) ∧
  ∀ source : String,
    (∀ i, (TokenStream.ofSource source).get i =
      ((fun c : Cursor => c.next.2)^[i] (.ofSource source)).next.1) ∧
    ∀ stop, parseStream ⟨tokenize source, stop⟩ = parse source
  := by
  refine ⟨?_, fun s s' h => h.parseStream_eq, ?_⟩
  · intro source source' h
    have htokens := tokenize_of_relaid h
    obtain ⟨hdiagnostics, hprogram⟩ := (agrees_ofSource htokens).parseStream_eq
    refine ⟨htokens, hdiagnostics, hprogram, ?_, ?_⟩
    · rw [← Program.render_unplaced, parse, hprogram, Program.render_unplaced, parse]
    · rw [← Program.toJson_unplaced, parse, hprogram, Program.toJson_unplaced, parse]
  · intro source
    use TokenStream.get_ofSource source
    intro stop
    have htokens : tokenize source = (TokenStream.ofSource source).tokens := rfl
    apply TokenStream.parseStream_eq_of_tokens htokens

/-- The tokens of a sum, without places. -/
def relaidTokens : List Token :=
  [⟨.identifier, "a", 0⟩, ⟨.plus, "+", 0⟩, ⟨.identifier, "b", 0⟩]

/-- Layout is inserted before and after the operator of `a+b`, and some of it replaced.  The
program is also that of the list of the three tokens, without the end. -/
theorem parse_relaid_sum :
  Relation.ReflTransGen Relaid "a+b" "a\n+ b" ∧
    (parse "a\n+ b").program.unplaced = (parse "a+b").program.unplaced ∧
    (TokenStream.ofSource "a+b").Agrees (.ofList relaidTokens) ∧
    (parse "a+b").program.unplaced = (parseStream (.ofList relaidTokens)).program.unplaced
  := by
  have hbefore : Relaid "a+b" "a\t+b" :=
    @Relaid.insert "a" "\t" "+b" (by decide) (by decide +kernel)
  have hafter : Relaid "a\t+b" "a\t+ b" :=
    @Relaid.insert "a\t+" " " "b" (by decide) (by decide +kernel)
  have hreplace : Relaid "a\t+ b" "a\n+ b" :=
    @Relaid.replace "a" "\t" "\n" "+ b" (by decide) (by decide) (by decide) (by decide)
  have hrelaid := ((Relation.ReflTransGen.single hbefore).tail hafter).tail hreplace
  have hagrees : (TokenStream.ofSource "a+b").Agrees (.ofList relaidTokens) := by
    have hstream : TokenStream.ofSource "a+b" =
        ⟨[⟨.identifier, "a", 0⟩, ⟨.plus, "+", 1⟩, ⟨.identifier, "b", 2⟩, .endAt 3], 3⟩ := by
      decide +kernel
    rw [hstream]
    rintro (_ | _ | _ | _ | i)
    all_goals exact ⟨rfl, rfl⟩
  obtain ⟨-, -, hprogram, -⟩ := parse_relaid.1 _ _ hrelaid
  exact ⟨hrelaid, hprogram, hagrees, (parse_relaid.2.1 _ _ hagrees).2⟩

end MonkeySyntax
