import Mathlib.Tactic.Common
import Syntagm.Parse.Observation

/-!
# Where observations lie

What is seen from a position on concerns tokens at or behind that position, up to the
lookahead (`Observation.Within`).  Positions in a result and in what was seen can be carried
to another place of a stream, or to another stream, as long as none lies in front of the
origin (`relocate`).

Matches one after the other make one match, whatever the order in which they are put together.
-/

namespace Syntagm

/-! ### Matches one after the other -/

namespace Fragment

theorem isBlank_iff {fragment : Fragment} : fragment.isBlank = true ↔ fragment = blank := by
  obtain ⟨leading, elements⟩ := fragment
  simp [isBlank, blank]

theorem blank_append (fragment : Fragment) : blank ++ fragment = fragment := rfl

theorem append_of_ne_blank {first : Fragment} (h : first ≠ blank) (second : Fragment) :
    first ++ second = ⟨first.leading, first.elements ++ second.leading ++ second.elements⟩ :=
  if_neg (mt isBlank_iff.mp h)

theorem append_blank (fragment : Fragment) : fragment ++ blank = fragment := by
  obtain ⟨leading, elements⟩ := fragment
  show append _ _ = _
  cases leading <;> cases elements <;> simp [append, isBlank, blank]

theorem append_assoc (first second third : Fragment) :
    first ++ second ++ third = first ++ (second ++ third) := by
  obtain ⟨leading, elements⟩ := first
  obtain ⟨leading', elements'⟩ := second
  show append (append _ _) _ = append _ (append _ _)
  cases leading <;> cases elements <;> cases leading' <;> cases elements' <;>
    simp [append, isBlank]

end Fragment

namespace Match

theorem append_blank (found : Match) : found ++ blank found.stop = found :=
  congrArg (Match.mk · found.stop) found.fragment.append_blank

theorem append_assoc (first second third : Match) :
    first ++ second ++ third = first ++ (second ++ third) :=
  congrArg (Match.mk · third.stop) (Fragment.append_assoc ..)

end Match

/-! ### Failures -/

namespace Failure

@[simp] theorem join_none_left (second : Option Failure) : join none second = second := by
  cases second <;> rfl

@[simp] theorem join_none_right (first : Option Failure) : join first none = first := by
  cases first <;> rfl

/-- The joint failure of two is at the position of one of them. -/
theorem join_position {first second : Option Failure} {failure : Failure}
    (h : join first second = some failure) :
    ∃ one, (first = some one ∨ second = some one) ∧ one.position = failure.position := by
  match first, second with
  | none, second => exact ⟨failure, .inr (by simpa using h), rfl⟩
  | some first, none => exact ⟨failure, .inl (by simpa using h), rfl⟩
  | some first, some second =>
    simp only [join] at h
    split at h
    · exact ⟨second, .inr rfl, congrArg position (Option.some.inj h)⟩
    · split at h
      · exact ⟨first, .inl rfl, congrArg position (Option.some.inj h)⟩
      · exact ⟨first, .inl rfl, by rw [← Option.some.inj h]⟩

theorem of?_position {position : Nat} {expected : KindSet} {failure : Failure}
    (h : of? position expected = some failure) : failure.position = position := by
  unfold of? at h
  split at h
  · cases h
  · exact (congrArg Failure.position (Option.some.inj h)).symm

end Failure

/-! ### The stretch that is seen -/

namespace Observation

/-- What was seen lies at or behind `position`, and in front of the lookahead; a failure may
also lie among the first `slack` tokens. -/
structure Within (seen : Observation) (position slack : Nat) : Prop where
  lookahead : seen.lookahead = 0 ∨ position < seen.lookahead
  failure : ∀ failure, seen.failure = some failure →
    position ≤ failure.position ∧ failure.position < max seen.lookahead (position + slack)

theorem Within.nothing (position slack : Nat) : Observation.nothing.Within position slack :=
  ⟨.inl rfl, fun _ h => nomatch h⟩

theorem Within.looked (position slack : Nat) : (looked position).Within position slack :=
  ⟨.inr (Nat.lt_succ_self position), fun _ h => nomatch h⟩

theorem Within.overflowed (overflow : Overflow) (position slack : Nat) :
    (overflowed overflow).Within position slack :=
  ⟨.inl rfl, fun _ h => nomatch h⟩

theorem Within.failed (position : Nat) (expected : KindSet) :
    (failed position expected).Within position 1 where
  lookahead := .inl rfl
  failure failure h := by
    rw [Failure.of?_position h]
    omega

variable {first second : Observation} {position next slack rest : Nat}

theorem Within.weaken (h : first.Within position 0) (slack : Nat) :
    first.Within position slack where
  lookahead := h.lookahead
  failure failure hf := by
    have := h.failure failure hf
    omega

/-- What is seen in two steps, of which the second starts no farther in front. -/
theorem Within.followedBy (hf : first.Within position slack) (hs : second.Within next rest)
    (le : position ≤ next) (fit : rest = 0 ∨ next + rest ≤ position + slack) :
    (first.followedBy second).Within position slack where
  lookahead := by
    have h1 := hf.lookahead
    have h2 := hs.lookahead
    simp only [Observation.followedBy]
    omega
  failure failure h := by
    obtain ⟨one, hone, heq⟩ := Failure.join_position h
    simp only [Observation.followedBy]
    rcases hone with hone | hone
    · have := hf.failure one hone
      omega
    · have := hs.failure one hone
      omega

/-- A failure at a position that was looked at is no exception. -/
theorem Within.afterLooked (h : second.Within position 1) :
    ((Observation.looked position).followedBy second).Within position 0 where
  lookahead := .inr (by simp only [Observation.followedBy, Observation.looked]; omega)
  failure failure hf := by
    have := h.failure failure (by simpa [Observation.followedBy, Observation.looked] using hf)
    simp only [Observation.followedBy, Observation.looked]
    omega

@[simp] theorem followedBy_lookahead (first second : Observation) :
    (first.followedBy second).lookahead = max first.lookahead second.lookahead := rfl

/-- No cut in two steps is no cut in either. -/
@[simp] theorem followedBy_overflow_eq_none (first second : Observation) :
    (first.followedBy second).overflow = none ↔
      first.overflow = none ∧ second.overflow = none := by
  simp [Observation.followedBy]

end Observation

/-! ### Carrying positions elsewhere -/

/-- A position at or behind `origin`, as far behind `target`. -/
def carried (origin target position : Nat) : Nat := position - origin + target

@[simp] theorem carried_self (origin target : Nat) : carried origin target origin = target := by
  simp [carried]

theorem carried_lt_iff {origin target first second : Nat} (hf : origin ≤ first)
    (hs : origin ≤ second) :
    carried origin target first < carried origin target second ↔ first < second := by
  unfold carried
  omega

theorem carried_succ {origin target position : Nat} (h : origin ≤ position) :
    carried origin target (position + 1) = carried origin target position + 1 := by
  unfold carried
  omega

/-- The end of a stretch.  Zero says that there is no stretch, and stays zero. -/
def carriedEnd (origin target stop : Nat) : Nat :=
  if stop = 0 then 0 else carried origin target stop

theorem carriedEnd_max {origin first second : Nat} (target : Nat)
    (hf : first = 0 ∨ origin < first) (hs : second = 0 ∨ origin < second) :
    carriedEnd origin target (max first second) =
      max (carriedEnd origin target first) (carriedEnd origin target second) := by
  rcases hf with rfl | hf
  · simp [carriedEnd]
  · rcases hs with rfl | hs
    · simp [carriedEnd]
    · simp only [carriedEnd, carried]
      rw [if_neg (by omega), if_neg (by omega), if_neg (by omega)]
      omega

namespace Match

/-- A match elsewhere. -/
def relocate (origin target : Nat) (found : Match) : Match :=
  { found with stop := carried origin target found.stop }

@[simp] theorem relocate_stop (origin target : Nat) (found : Match) :
    (found.relocate origin target).stop = carried origin target found.stop := rfl

@[simp] theorem relocate_fragment (origin target : Nat) (found : Match) :
    (found.relocate origin target).fragment = found.fragment := rfl

end Match

namespace Failure

/-- A failure elsewhere. -/
def relocate (origin target : Nat) (failure : Failure) : Failure :=
  { failure with position := carried origin target failure.position }

theorem relocate_of? (origin target position : Nat) (expected : KindSet) :
    (of? position expected).map (relocate origin target) =
      of? (carried origin target position) expected := by
  unfold of?
  split <;> rfl

theorem relocate_join {origin : Nat} (target : Nat) {first second : Option Failure}
    (hf : ∀ failure, first = some failure → origin ≤ failure.position)
    (hs : ∀ failure, second = some failure → origin ≤ failure.position) :
    (join first second).map (relocate origin target) =
      join (first.map (relocate origin target)) (second.map (relocate origin target)) := by
  match first, second with
  | none, second => simp
  | some first, none => simp
  | some first, some second =>
    have hf := hf first rfl
    have hs := hs second rfl
    simp only [Option.map_some, join, relocate, carried_lt_iff hf hs, carried_lt_iff hs hf]
    split
    · rfl
    · split <;> rfl

end Failure

namespace Observation

/-- An observation elsewhere. -/
def relocate (origin target : Nat) (seen : Observation) : Observation where
  failure := seen.failure.map (Failure.relocate origin target)
  lookahead := carriedEnd origin target seen.lookahead
  overflow := seen.overflow

@[simp] theorem relocate_nothing (origin target : Nat) :
    Observation.nothing.relocate origin target = .nothing := rfl

theorem relocate_looked {origin position : Nat} (target : Nat) (h : origin ≤ position) :
    (looked position).relocate origin target = .looked (carried origin target position) := by
  simp [relocate, looked, carriedEnd, carried_succ h]

theorem relocate_failed (origin target position : Nat) (expected : KindSet) :
    (failed position expected).relocate origin target =
      .failed (carried origin target position) expected := by
  simp [relocate, failed, carriedEnd, Failure.relocate_of?]

variable {first second : Observation} {origin position next slack rest : Nat}

theorem relocate_followedBy (target : Nat) (hf : first.Within position slack)
    (hs : second.Within next rest) (hp : origin ≤ position) (hn : origin ≤ next) :
    (first.followedBy second).relocate origin target =
      (first.relocate origin target).followedBy (second.relocate origin target) := by
  have hl1 := hf.lookahead
  have hl2 := hs.lookahead
  have hjoin := Failure.relocate_join target
    (fun failure h => Nat.le_trans hp (hf.failure failure h).1)
    (fun failure h => Nat.le_trans hn (hs.failure failure h).1)
  have hmax := carriedEnd_max target
    (hl1.imp_right (Nat.lt_of_le_of_lt hp)) (hl2.imp_right (Nat.lt_of_le_of_lt hn))
  simp only [relocate, followedBy, hjoin, hmax]

/-- To stay is to change nothing. -/
@[simp] theorem relocate_zero (seen : Observation) : seen.relocate 0 0 = seen := by
  have hlook : carriedEnd 0 0 seen.lookahead = seen.lookahead := by
    simp only [carriedEnd, carried]
    split_ifs <;> omega
  have hfail : seen.failure.map (Failure.relocate 0 0) = seen.failure := by
    cases seen.failure <;> rfl
  simp only [relocate, hlook, hfail]

end Observation

@[simp] theorem Match.relocate_zero (found : Match) : found.relocate 0 0 = found := rfl

end Syntagm
