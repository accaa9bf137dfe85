import Mathlib.Logic.Relation
import MonkeySyntax.Proofs.Source.Tokenization

/-!
# Changes of layout

The layout of a source may be changed without a change of its tokens, but for their places:
layout may be inserted wherever no token is cut in two, and layout that is there may be replaced
by other layout, as long as some remains.

No token contains layout, and so a place beside a character of layout is never within a token.
-/

namespace MonkeySyntax

/-- A text of layout. -/
def IsGap (text : String) : Prop :=
  ∀ c ∈ text.toList, isLayout c = true

instance (text : String) : Decidable (IsGap text) :=
  List.decidableBAll (fun c => isLayout c = true) text.toList

/-- An offset of a source that is not strictly within a token. -/
def IsBoundary (source : String) (offset : Nat) : Prop :=
  ∀ t ∈ tokenize source, ↑offset ≤ t.position ∨ t.limit ≤ ↑offset

instance (source : String) (offset : Nat) : Decidable (IsBoundary source offset) :=
  inferInstanceAs (Decidable (∀ t ∈ tokenize source, ↑offset ≤ t.position ∨ t.limit ≤ ↑offset))

/-- One change of the layout of a source. -/
inductive Relaid : String → String → Prop
  /-- Layout is inserted at a place that is not strictly within a token. -/
  | insert {before gap after : String} (hgap : IsGap gap)
      (h : IsBoundary (before ++ after) before.length) :
      Relaid (before ++ after) (before ++ gap ++ after)
  /-- Layout is replaced by other layout. -/
  | replace {before gap gap' after : String} (hgap : IsGap gap) (hne : gap ≠ "")
      (hgap' : IsGap gap') (hne' : gap' ≠ "") :
      Relaid (before ++ gap ++ after) (before ++ gap' ++ after)

/-! ### Inserting layout -/

/-- What does not lengthen a token after it does not when layout is inserted there, since layout
lengthens no token. -/
theorem isLengthenedBy_insert {kind : Kind} (before : List Char) {gap after : List Char}
    (hgap : ∀ c ∈ gap, isLayout c = true)
    (h : ∀ c ∈ (before ++ after).head?, kind.isLengthenedBy c = false) :
  ∀ c ∈ (before ++ (gap ++ after)).head?, kind.isLengthenedBy c = false
  := by
  cases before with
  | nil =>
    cases gap with
    | nil => apply h
    | cons d gap =>
      intro c hc
      obtain rfl : d = c := by simpa using hc
      apply Kind.isLengthenedBy_of_isLayout (hgap d List.mem_cons_self)
  | cons d before => apply h

/-- Layout that is inserted between tokens makes no difference to what is read.  The place of it is
after the first token, at one of its ends, or in the layout before it. -/
theorem Munches.lexes_insert {n : Nat} {cs : List Char} {ts : List Token} (h : Munches n cs ts)
    {before gap after : List Char} (hcs : cs = before ++ after)
    (hgap : ∀ c ∈ gap, isLayout c = true)
    (hplace : ∀ t ∈ ts, ↑(n + before.length) ≤ t.position ∨ t.limit ≤ ↑(n + before.length)) :
  Lexes (before ++ (gap ++ after)) (ts.map Token.unplaced ++ [.endAt 0])
  := by
  induction h generalizing before with
  | nil hlayout =>
    subst hcs
    rw [List.forall_mem_append] at hlayout
    have hlexes := ((Lexes.nil.gap hlayout.2).gap hgap).gap hlayout.1
    rwa [List.append_nil] at hlexes
  | @cons n first text rest kind ts hfirst hspells hrest h ih =>
    have hlexes := h.lexes.spelling hspells hrest
    obtain ⟨htoken, hplace⟩ := List.forall_mem_cons.mp hplace
    dsimp only [Token.limit] at htoken
    rw [String.length_ofList] at htoken
    rcases List.append_eq_append_iff.mp hcs with ⟨cut, rfl, hcut⟩ | ⟨later, rfl, rfl⟩
    · rw [List.length_append] at htoken
      rcases List.append_eq_append_iff.mp hcut with ⟨between, rfl, rfl⟩ | ⟨later, rfl, rfl⟩
      · have hbetween := isLengthenedBy_insert between hgap hrest
        have hlater := ih rfl (by simpa [Nat.add_assoc] using hplace)
        have hinserted := (hlater.spelling hspells hbetween).gap hfirst
        rw [List.append_assoc, List.append_assoc]
        apply hinserted
      · rw [List.length_append] at htoken
        rcases htoken with htoken | htoken
        · obtain rfl : cut = [] := List.length_eq_zero_iff.mp (by omega)
          rw [List.append_nil]
          apply (hlexes.gap hgap).gap hfirst
        · obtain rfl : later = [] := List.length_eq_zero_iff.mp (by omega)
          have hafter := isLengthenedBy_insert [] hgap hrest
          have hinserted := ((h.lexes.gap hgap).spelling hspells hafter).gap hfirst
          rw [List.append_nil] at hinserted ⊢
          rw [List.append_assoc]
          apply hinserted
    · rw [List.forall_mem_append] at hfirst
      apply ((hlexes.gap hfirst.2).gap hgap).gap hfirst.1

/-- Inserting layout between the tokens of a source leaves their kinds and texts as they are. -/
theorem tokenize_insert {before gap after : String} (hgap : IsGap gap)
    (h : IsBoundary (before ++ after) before.length) :
  (tokenize (before ++ gap ++ after)).map Token.unplaced =
    (tokenize (before ++ after)).map Token.unplaced
  := by
  obtain ⟨ts, hts⟩ := exists_munches 0 (before ++ after).toList
  have htokens := hts.tokenize_eq
  have hplace : ∀ t ∈ ts, ↑(0 + before.toList.length) ≤ t.position ∨
      t.limit ≤ ↑(0 + before.toList.length) := by
    intro t ht
    rw [Nat.zero_add, String.length_toList]
    apply h
    rw [htokens]
    apply List.mem_append_left _ ht
  have hlexes := hts.lexes_insert String.toList_append hgap hplace
  have hsource : before.toList ++ (gap.toList ++ after.toList) =
      (before ++ gap ++ after).toList := by
    rw [String.toList_append, String.toList_append, List.append_assoc]
  rw [hsource] at hlexes
  exact (hlexes 0).trans (hts.lexes 0).symm

/-! ### Replacing layout -/

/-- There is no layout within a token. -/
theorem Token.StandsIn.exists_char {n : Nat} {cs : List Char} {t : Token} (h : t.StandsIn n cs)
    {i : Nat} (hle : t.position ≤ ↑(n + i)) (hlt : ↑(n + i) < t.limit) :
  ∃ c, cs[i]? = some c ∧ isLayout c = false
  := by
  obtain ⟨before, after, rfl, hposition, hspells, -⟩ := h
  rw [limit, hposition, ← String.length_toList] at hlt
  have hi : i - before.length < t.text.toList.length := by omega
  refine ⟨t.text.toList[i - before.length], ?_, hspells.isLayout _ (List.getElem_mem hi)⟩
  rw [List.getElem?_append_right (by omega), List.getElem?_append_left hi,
    List.getElem?_eq_getElem hi]

/-- A place beside a character of layout is not within a token. -/
theorem isBoundary_of_isLayout {source : String} {offset i : Nat} {c : Char}
    (hoffset : offset ≤ source.length) (hi : offset = i ∨ offset = i + 1)
    (hc : source.toList[i]? = some c) (hlayout : isLayout c = true) :
  IsBoundary source offset
  := by
  obtain ⟨ts, hts⟩ := exists_munches 0 source.toList
  intro t ht
  rw [hts.tokenize_eq] at ht
  rcases List.mem_append.mp ht with ht | ht
  · by_contra hwithin
    rw [not_or] at hwithin
    obtain ⟨d, hd, hdlayout⟩ := (hts.accounts.stands t ht).exists_char (i := i)
      (by omega) (by omega)
    rw [hc] at hd
    cases hd
    rw [hlayout] at hdlayout
    cases hdlayout
  · obtain rfl := List.mem_singleton.mp ht
    exact .inl (by simpa [Token.endAt] using hoffset)

/-- The places before and after layout are not within a token. -/
theorem isBoundary_gap (before after : String) {gap : String} (hgap : IsGap gap)
    (hne : gap ≠ "") :
  IsBoundary (before ++ gap ++ after) before.length ∧
    IsBoundary (before ++ gap ++ after) (before ++ gap).length
  := by
  have hpos : 0 < gap.toList.length := by
    rw [List.length_pos_iff]
    intro hnil
    apply hne
    rw [← String.ofList_toList (s := gap), hnil]
  have hchar (i : Nat) (hi : i < gap.toList.length) :
      (before ++ gap ++ after).toList[before.length + i]? = some gap.toList[i] := by
    rw [String.toList_append, String.toList_append, List.append_assoc, ← String.length_toList,
      List.getElem?_append_right (by omega), Nat.add_sub_cancel_left,
      List.getElem?_append_left hi, List.getElem?_eq_getElem hi]
  constructor
  · apply isBoundary_of_isLayout _ (.inl rfl) (hchar 0 hpos) (hgap _ (List.getElem_mem hpos))
    rw [String.length_append, String.length_append]
    omega
  · have hlast : gap.toList.length - 1 < gap.toList.length := by omega
    apply isBoundary_of_isLayout _ (.inr _) (hchar _ hlast) (hgap _ (List.getElem_mem hlast))
    · rw [String.length_append (before ++ gap)]
      omega
    · rw [String.length_append, ← String.length_toList (s := gap)]
      omega

/-- One change of layout leaves the kinds and texts of the tokens as they are.  Where layout is
replaced, both sources are got from the one with both layouts one after the other. -/
theorem Relaid.tokenize_eq {source source' : String} (h : Relaid source source') :
  (tokenize source').map Token.unplaced = (tokenize source).map Token.unplaced
  := by
  cases h with
  | insert hgap h => apply tokenize_insert hgap h
  | @replace before gap gap' after hgap hne hgap' hne' =>
    obtain ⟨-, hafter⟩ := isBoundary_gap before after hgap hne
    obtain ⟨hbefore, -⟩ := isBoundary_gap before after hgap' hne'
    rw [String.append_assoc] at hbefore
    have hinsert := tokenize_insert hgap' hafter
    have hinsert' := tokenize_insert hgap hbefore
    rw [← String.append_assoc, ← String.append_assoc] at hinsert'
    rw [← hinsert', hinsert]

/-- Any changes of layout leave the kinds and texts of the tokens as they are. -/
theorem tokenize_of_relaid {source source' : String}
    (h : Relation.ReflTransGen Relaid source source') :
  (tokenize source').map Token.unplaced = (tokenize source).map Token.unplaced
  := by
  induction h with
  | refl => rfl
  | tail _ hstep ih => rw [hstep.tokenize_eq, ih]

end MonkeySyntax
