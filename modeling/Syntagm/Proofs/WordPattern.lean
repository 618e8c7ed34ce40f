import Mathlib.Data.List.TakeWhile
import Syntagm.Lexicon.Scan

/-!
# Patterns for words

Keywords are looked up under what the word terminal takes, so it matters what that is where a text
begins with a keyword.  A pattern persists if it takes at least what it would take of the beginning
alone (`Pattern.Persists`).  One or more characters of a set do (`Pattern.persists_set`); a pattern
that asks what follows need not.
-/

namespace Syntagm

/-- **A pattern persists** if it matches at least as much, whatever follows a text that it matches
as a whole. -/
def Pattern.Persists (pattern : Pattern) : Prop :=
  ∀ text rest, pattern.longest? Unicode.isWordCharacter text = some text.length →
    ∃ length, pattern.longest? Unicode.isWordCharacter (text ++ rest) = some length ∧
      text.length ≤ length

namespace Cursor

variable {text : List Char}

theorem next?_of_nil {cursor : Cursor text} (h : cursor.rest = []) : cursor.next? = none := by
  unfold next?
  split
  · rfl
  · rename_i heq
    rw [h] at heq
    cases heq

theorem exists_next? {cursor : Cursor text} {c : Char} {rest : List Char}
    (h : cursor.rest = c :: rest) : ∃ next, cursor.next? = some (c, next) ∧
      next.taken = cursor.taken + 1 ∧ next.rest = rest := by
  unfold next?
  split
  · rename_i heq
    rw [h] at heq
    cases heq
  · rename_i heq
    rw [h] at heq
    obtain ⟨rfl, rfl⟩ := List.cons.inj heq
    exact ⟨_, rfl, rfl, rfl⟩

end Cursor

namespace Pattern

variable {text : List Char} {isWord member : Char → Bool}

/-- One character of a set. -/
theorem ends_set_of_nil {cursor : Cursor text} (h : cursor.rest = []) :
    ends isWord (.set member) [cursor] = [] := by
  simp [ends, Cursor.next?_of_nil h]

theorem ends_set_of_cons {cursor : Cursor text} {c : Char} {rest : List Char}
    (h : cursor.rest = c :: rest) :
    ends isWord (.set member) [cursor] = [] ∧ member c = false ∨
      ∃ next, ends isWord (.set member) [cursor] = [next] ∧ member c = true ∧
        next.taken = cursor.taken + 1 ∧ next.rest = rest := by
  obtain ⟨next, hnext, htaken, hrest⟩ := Cursor.exists_next? h
  by_cases hmember : member c = true
  · exact .inr ⟨next, by simp [ends, hnext, hmember], hmember, htaken, hrest⟩
  · exact .inl ⟨by simp [ends, hnext, hmember], Bool.eq_false_iff.mpr hmember⟩

/-- Any number of characters of a set reach as far as there are such characters. -/
theorem taken_closureFrom_set (cursor : Cursor text) :
    (closureFrom (ends isWord (.set member)) cursor []).getLast?.map (·.taken) =
      some (cursor.taken + (cursor.rest.takeWhile member).length) := by
  generalize hrest : cursor.rest = rest
  induction rest generalizing cursor with
  | nil =>
    rw [closureFrom]
    simp [Cursor.merge, ends_set_of_nil hrest]
  | cons c rest ih =>
    rw [closureFrom]
    rcases @ends_set_of_cons text isWord member cursor c rest hrest with
      ⟨hends, hmember⟩ | ⟨next, hends, hmember, htaken, hnext⟩
    · simp [Cursor.merge, hends, hmember]
    · have hlt : cursor.taken < next.taken := htaken ▸ Nat.lt_succ_self _
      obtain ⟨last, hlast, htotal⟩ := Option.map_eq_some_iff.mp (ih next hnext)
      simp only [Cursor.merge, hends, hlt, decide_true, List.filter_cons_of_pos, List.filter_nil,
        dif_pos, List.getLast?_cons, hlast, Option.getD_some, Option.map_some]
      rw [htotal, htaken, List.takeWhile_cons_of_pos hmember, List.length_cons]
      congr 1
      omega

/-- **A pattern of one or more characters of a set** takes all of them. -/
theorem longest?_set (text : List Char) :
    (repetition 1 none (.set member)).longest? isWord text =
      if text.head?.any member then some (text.takeWhile member).length else none := by
  show (closure _ (ends isWord (.set member) [Cursor.start text])).getLast?.map (·.taken) = _
  cases text with
  | nil => rw [ends_set_of_nil rfl]; rfl
  | cons c rest =>
    rcases @ends_set_of_cons (c :: rest) isWord member (.start _) c rest rfl with
      ⟨hends, hmember⟩ | ⟨next, hends, hmember, htaken, hnext⟩
    · rw [hends, if_neg (by simp [hmember])]
      rfl
    · rw [hends, closure, taken_closureFrom_set, htaken, hnext, if_pos (by simp [hmember]),
        List.takeWhile_cons_of_pos hmember, List.length_cons, Nat.add_comm]
      rfl

/-- Such a pattern persists: what follows can only make the run longer. -/
theorem persists_set (member : Char → Bool) : (repetition 1 none (.set member)).Persists := by
  intro text rest h
  rw [longest?_set] at h
  split at h
  · rename_i hhead
    have hall : text.takeWhile member = text :=
      (List.takeWhile_prefix _).eq_of_length (Option.some.inj h)
    have hhead' : (text ++ rest).head?.any member = true := by
      cases text with
      | nil => cases hhead
      | cons c text => exact hhead
    refine ⟨_, (longest?_set _).trans (if_pos hhead'), ?_⟩
    rw [List.takeWhile_append_of_pos (List.takeWhile_eq_self_iff.mp hall), List.length_append]
    exact Nat.le_add_right _ _
  · cases h

/-- Whether a pattern is one or more characters of a set. -/
def isSetRun : Pattern → Bool
  | .repetition 1 none (.set _) => true
  | _ => false

theorem persists_of_isSetRun {pattern : Pattern} (h : pattern.isSetRun = true) :
    pattern.Persists := by
  unfold isSetRun at h
  split at h
  · exact persists_set _
  · cases h

end Pattern

end Syntagm
