import MonkeySyntax.Proofs.Source.Tokenization
import MonkeySyntax.Text.Lines

/-!
# Ends of lines

A source whose ends of lines are unified has the tokens of the source, each of which stands as many
characters further to the front as there are carriage returns before it that a newline follows: of
these two characters one is left.  All characters at the ends of lines are layout, whether unified
or not, so no token is changed, and none has a part of an end of a line in it.
-/

namespace MonkeySyntax

namespace Text

/-- A list of characters with its ends of lines unified: a carriage return is left out before a
newline, and is a newline before anything else. -/
def unified : List Char → List Char
  | [] => []
  | c :: cs =>
    (if c = '\r' then if cs.head? = some '\n' then [] else ['\n'] else [c]) ++ unified cs

/-- The number of carriage returns with a newline after them. -/
def countPairs (cs : List Char) : Nat :=
  (cs.zip cs.tail).count ('\r', '\n')

/-- The pairs of characters are counted from the left to the right. -/
theorem countPairs_cons (c : Char) (cs : List Char) :
  countPairs (c :: cs) = (if c = '\r' ∧ cs.head? = some '\n' then 1 else 0) + countPairs cs
  := by
  cases cs with
  | nil => simp [countPairs]
  | cons d cs =>
    rw [countPairs, List.tail_cons, List.zip_cons_cons, List.count_cons, Nat.add_comm]
    simp [countPairs]

/-- Of the two characters of a pair one is left. -/
theorem length_unified (cs : List Char) :
  (unified cs).length + countPairs cs = cs.length
  := by
  induction cs with
  | nil => rfl
  | cons c cs ih =>
    rw [unified, countPairs_cons, List.length_append, List.length_cons, ← ih]
    by_cases hc : c = '\r'
    · by_cases hnext : cs.head? = some '\n'
      · simp [hc, hnext]
        omega
      · simp [hc, hnext]
        omega
    · simp [hc]
      omega

/-- Unifying the ends of lines brings in no character but a newline. -/
theorem mem_unified {cs : List Char} {c : Char} (h : c ∈ unified cs) :
  c = '\n' ∨ c ∈ cs
  := by
  induction cs with
  | nil => cases h
  | cons d cs ih =>
    rw [unified, List.mem_append] at h
    rcases h with h | h
    · split at h
      · split at h
        · cases h
        · exact .inl (List.mem_singleton.mp h)
      · rw [List.mem_singleton.mp h]
        exact .inr List.mem_cons_self
    · rcases ih h with hc | hc
      · exact .inl hc
      · exact .inr (List.mem_cons_of_mem d hc)

/-- The first character stays, or is an end of a line. -/
theorem head?_unified {cs : List Char} {c : Char} (h : c ∈ (unified cs).head?) :
  c = '\n' ∨ c ∈ cs.head?
  := by
  induction cs with
  | nil => cases h
  | cons d cs ih =>
    rw [unified] at h
    by_cases hd : d = '\r'
    · by_cases hnext : cs.head? = some '\n'
      · rw [if_pos hd, if_pos hnext, List.nil_append] at h
        rcases ih h with hc | hc
        · exact .inl hc
        · rw [hnext] at hc
          exact .inl (Option.some.inj hc).symm
      · rw [if_pos hd, if_neg hnext] at h
        exact .inl (Option.some.inj h).symm
    · rw [if_neg hd] at h
      exact .inr h

/-- Without a carriage return nothing is unified. -/
theorem unified_of_not_mem {cs : List Char} (h : '\r' ∉ cs) :
  unified cs = cs
  := by
  induction cs with
  | nil => rfl
  | cons c cs ih =>
    rw [List.mem_cons, not_or] at h
    obtain ⟨hc, hcs⟩ := h
    rw [unified, if_neg (Ne.symm hc), ih hcs]
    rfl

/-- Two lists that do not share a pair are unified each on its own. -/
theorem unified_append {cs cs' : List Char}
    (h : cs.getLast? = some '\r' → cs'.head? ≠ some '\n') :
  unified (cs ++ cs') = unified cs ++ unified cs'
  := by
  induction cs with
  | nil => rfl
  | cons c cs ih =>
    cases cs with
    | nil =>
      rw [List.singleton_append, unified, unified]
      by_cases hc : c = '\r'
      · have hnext := h (congrArg some hc)
        simp [hc, hnext, unified]
      · simp [hc, unified]
    | cons d cs =>
      rw [List.cons_append, unified, ih h]
      exact (List.append_assoc _ (unified (d :: cs)) (unified cs')).symm

end Text

/-! ### Tokens -/

/-- A token of a source, where it stands once the ends of lines are unified: moved to the front by
the number of pairs before it. -/
def Token.unifiedIn (source : List Char) (t : Token) : Token :=
  { t with position := t.position - Text.countPairs (source.take t.position.toNat) }

/-- Layout is layout when its ends of lines are unified. -/
theorem isLayout_unified {gap : List Char} (hgap : ∀ c ∈ gap, isLayout c = true) :
  ∀ c ∈ Text.unified gap, isLayout c = true
  := by
  intro c hc
  rcases Text.mem_unified hc with rfl | hc
  · rfl
  · apply hgap c hc

/-- There is no part of an end of a line in a spelling. -/
theorem Kind.Spells.not_mem {kind : Kind} {text : List Char} (h : kind.Spells text) {c : Char}
    (hc : MonkeySyntax.isLayout c = true) :
  c ∉ text
  := by
  intro hmem
  rw [h.isLayout c hmem] at hc
  cases hc

/-- The spelling of a token does not start within an end of a line. -/
theorem Kind.Spells.head?_append_ne {kind : Kind} {text : List Char} (h : kind.Spells text)
    (rest : List Char) :
  (text ++ rest).head? ≠ some '\n'
  := by
  intro hhead
  rw [List.head?_append, List.head?_eq_some_head h.ne_nil, Option.some_or,
    Option.some.injEq] at hhead
  apply h.not_mem (c := '\n') rfl
  rw [← hhead]
  apply List.head_mem

/-- The spelling of a token does not end within an end of a line. -/
theorem Kind.Spells.getLast?_append_ne {kind : Kind} {text : List Char} (h : kind.Spells text)
    (before : List Char) :
  (before ++ text).getLast? ≠ some '\r'
  := by
  intro hlast
  rw [List.getLast?_append, List.getLast?_eq_some_getLast h.ne_nil, Option.some_or,
    Option.some.injEq] at hlast
  apply h.not_mem (c := '\r') rfl
  rw [← hlast]
  apply List.getLast_mem

/-- What is munched after other characters is munched when the ends of lines are unified. -/
theorem Munches.unified {n : Nat} {cs : List Char} {ts : List Token} (h : Munches n cs ts)
    {before : List Char} (hn : n = before.length)
    (hjoin : before.getLast? = some '\r' → cs.head? ≠ some '\n') :
  Munches (Text.unified before).length (Text.unified cs) (ts.map (Token.unifiedIn (before ++ cs)))
  := by
  induction h generalizing before with
  | nil hgap => exact .nil (isLayout_unified hgap)
  | @cons n gap text rest kind ts hgap hspells hrest h ih =>
    subst hn
    have htext : Text.unified text = text := Text.unified_of_not_mem (hspells.not_mem rfl)
    have hlast : text.getLast? ≠ some '\r' := hspells.getLast?_append_ne []
    have hgap' : Text.unified (before ++ gap) = Text.unified before ++ Text.unified gap := by
      apply Text.unified_append
      intro hbefore
      cases gap with
      | nil => simp
      | cons c gap => apply hjoin hbefore
    have hcs : Text.unified (gap ++ (text ++ rest)) =
        Text.unified gap ++ (text ++ Text.unified rest) := by
      rw [Text.unified_append (fun _ => hspells.head?_append_ne rest),
        Text.unified_append (fun h => (hlast h).elim), htext]
    have hbefore : Text.unified (before ++ gap ++ text) =
        Text.unified before ++ Text.unified gap ++ text := by
      have hhead := hspells.head?_append_ne []
      rw [List.append_nil] at hhead
      rw [Text.unified_append (fun _ => hhead), hgap', htext]
    have htoken : Token.unifiedIn (before ++ (gap ++ (text ++ rest)))
        ⟨kind, String.ofList text, ↑(before.length + gap.length)⟩ =
          ⟨kind, String.ofList text,
            ↑((Text.unified before).length + (Text.unified gap).length)⟩ := by
      have htake : (before ++ (gap ++ (text ++ rest))).take (before.length + gap.length) =
          before ++ gap := by
        rw [← List.append_assoc, ← List.length_append, List.take_left]
      have hlength := Text.length_unified (before ++ gap)
      rw [hgap', List.length_append, List.length_append] at hlength
      rw [Token.unifiedIn, Int.toNat_natCast, htake, Token.mk.injEq]
      refine ⟨rfl, rfl, ?_⟩
      dsimp only
      omega
    have hlater := @ih (before ++ gap ++ text) (by simp [Nat.add_assoc])
      (fun h => (hspells.getLast?_append_ne _ h).elim)
    rw [hbefore, List.length_append, List.length_append] at hlater
    simp only [List.append_assoc] at hlater
    rw [hcs, List.map_cons, htoken]
    apply Munches.cons (isLayout_unified hgap) hspells _ hlater
    intro c hc
    rcases Text.head?_unified hc with rfl | hc
    · apply Kind.isLengthenedBy_of_isLayout rfl
    · apply hrest c hc

end MonkeySyntax
