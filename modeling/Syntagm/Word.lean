/-!
# Words

The numbers of a machine are words of some size.  What becomes of a sum or of a difference that is
no word depends on how a program was built (`Arithmetic`): it stops, or it goes on modulo the size.
A program that goes on may have left the right way there; one that checks its words gives the same
as long as it gives something.
-/

namespace Syntagm

/-- What becomes of sums and differences that are no words. -/
inductive Arithmetic where
  /-- The program stops. -/
  | checked
  /-- It goes on modulo the size of the word. -/
  | wrapping
  deriving DecidableEq, Repr

namespace Arithmetic

/-- The sum of two words of which there are `size`, unless the program stops. -/
def sum? (arithmetic : Arithmetic) (size first second : Nat) : Option Nat :=
  if first + second < size then some (first + second)
  else
    match arithmetic with
    | .checked => none
    | .wrapping => some ((first + second) % size)

/-- The difference of two words of which there are `size`, unless the program stops. -/
def difference? (arithmetic : Arithmetic) (size first second : Nat) : Option Nat :=
  if second ≤ first then some (first - second)
  else
    match arithmetic with
    | .checked => none
    | .wrapping => some (size + first - second)

/-- What a program gives, if `strayed` says whether a sum or difference on the way was no word. -/
def result? {α : Type} (arithmetic : Arithmetic) (strayed : Bool) (result : α) : Option α :=
  match arithmetic with
  | .checked => if strayed then none else some result
  | .wrapping => some result

variable {size first second : Nat}

theorem sum?_wrapping : wrapping.sum? size first second = some ((first + second) % size) := by
  rw [sum?]
  split
  · rename_i fits
    rw [Nat.mod_eq_of_lt fits]
  · rfl

theorem difference?_of_le (arithmetic : Arithmetic) (le : second ≤ first) :
    arithmetic.difference? size first second = some (first - second) :=
  if_pos le

theorem difference?_checked_eq_none (lt : first < second) :
    checked.difference? size first second = none :=
  if_neg (Nat.not_le.mpr lt)

theorem exists_difference?_wrapping (size first second : Nat) :
    ∃ difference, wrapping.difference? size first second = some difference := by
  rw [difference?]
  split
  · exact ⟨_, rfl⟩
  · exact ⟨_, rfl⟩

section Results
variable {α β : Type} {arithmetic : Arithmetic} {strayed : Bool} {result : α}

/-- What is given is the result. -/
theorem eq_of_result? {given : α} (gives : arithmetic.result? strayed result = some given) :
    given = result := by
  unfold result? at gives
  split at gives
  · split at gives
    · cases gives
    · exact (Option.some.inj gives).symm
  · exact (Option.some.inj gives).symm

theorem result?_of_not_strayed (kept : strayed = false) :
    arithmetic.result? strayed result = some result := by
  subst kept
  cases arithmetic <;> rfl

/-- Whether a program stops does not depend on its result. -/
theorem isSome_result? (result : α) (other : β) :
    (arithmetic.result? strayed result).isSome = (arithmetic.result? strayed other).isSome := by
  cases arithmetic <;> cases strayed <;> rfl

end Results

end Arithmetic

end Syntagm
