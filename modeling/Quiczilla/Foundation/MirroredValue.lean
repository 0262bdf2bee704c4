import Quiczilla.Foundation.Runs

/-!
# A value on two sides

Each side holds a copy of one value.  A write replaces the copy of its own
side at once and is sent to the other side, where it replaces the copy when it
arrives; each direction is a queue, and nothing orders the two.

Once everything has arrived, the copies agree exactly if the last write of the
run did not cross a different one.
-/

namespace Quiczilla.Foundation

universe u

structure Mirror (Value : Type u) where
  left : Value
  right : Value
  toLeft : List Value
  toRight : List Value
  deriving DecidableEq, Repr

inductive MirrorLabel (Value : Type u) where
  | writeLeft (value : Value)
  | writeRight (value : Value)
  | arriveLeft
  | arriveRight
  deriving DecidableEq, Repr

variable {Value : Type u}

def Mirror.start (value : Value) : Mirror Value where
  left := value
  right := value
  toLeft := []
  toRight := []

def mirrorStep (mirror : Mirror Value) :
    MirrorLabel Value → Option (Mirror Value)
  | .writeLeft value =>
      some
        { mirror with left := value, toRight := mirror.toRight ++ [value] }
  | .writeRight value =>
      some
        { mirror with right := value, toLeft := mirror.toLeft ++ [value] }
  | .arriveLeft =>
      match mirror.toLeft with
      | value :: rest => some { mirror with left := value, toLeft := rest }
      | [] => none
  | .arriveRight =>
      match mirror.toRight with
      | value :: rest =>
          some { mirror with right := value, toRight := rest }
      | [] => none

/-- What a side holds when everything under way has arrived. -/
def coming (value : Value) (incoming : List Value) : Value :=
  (incoming.getLast?).getD value

theorem coming_concat (value last : Value) (incoming : List Value) :
    coming value (incoming ++ [last]) = last := by
  rw [coming, List.getLast?_concat, Option.getD_some]

theorem coming_cons (value first : Value) (rest : List Value) :
    coming value (first :: rest) = coming first rest := by
  rw [coming, coming, List.getLast?_cons, Option.getD_some]

/-- The copies that are to come agree exactly if the last write was
undisputed. -/
def MirrorSound (mirror : Mirror Value) (undisputed : Bool) : Prop :=
  coming mirror.left mirror.toLeft = coming mirror.right mirror.toRight ↔
    undisputed = true

theorem mirrorSound_start (value : Value) :
    MirrorSound (Mirror.start value) true :=
  iff_of_true rfl rfl

/-- Nothing is under way. -/
def Mirror.Settled (mirror : Mirror Value) : Prop :=
  mirror.toLeft = [] ∧ mirror.toRight = []

theorem MirrorSound.settled
    {mirror : Mirror Value} {undisputed : Bool}
    (sound : MirrorSound mirror undisputed) (settled : mirror.Settled) :
    mirror.left = mirror.right ↔ undisputed = true := by
  rw [MirrorSound, settled.1, settled.2] at sound
  exact sound

section Writes

variable [DecidableEq Value]

/-- The last write under way to its writer, if there is one, is the same. -/
def Undisputed (incoming : List Value) (value : Value) : Bool :=
  (incoming.getLast?).all (· == value)

theorem undisputed_iff (incoming : List Value) (value : Value) :
    Undisputed incoming value = true ↔ coming value incoming = value := by
  rw [Undisputed, coming]
  cases incoming.getLast? with
  | none => simp
  | some last => simp

/-- The history variable: whether the last write was undisputed. -/
def noteWrite (mirror : Mirror Value) (label : MirrorLabel Value)
    (undisputed : Bool) : Bool :=
  match label with
  | .writeLeft value => Undisputed mirror.toLeft value
  | .writeRight value => Undisputed mirror.toRight value
  | .arriveLeft => undisputed
  | .arriveRight => undisputed

/-- Every step keeps the invariant: an arrival changes nothing that is to
come. -/
theorem mirrorSound_step
    {mirror next : Mirror Value} {label : MirrorLabel Value}
    {undisputed : Bool} (sound : MirrorSound mirror undisputed)
    (stepped : mirrorStep mirror label = some next) :
    MirrorSound next (noteWrite mirror label undisputed) := by
  cases label with
  | writeLeft value =>
      cases stepped
      rw [MirrorSound, coming_concat]
      exact (undisputed_iff mirror.toLeft value).symm
  | writeRight value =>
      cases stepped
      rw [MirrorSound, coming_concat]
      exact eq_comm.trans (undisputed_iff mirror.toRight value).symm
  | arriveLeft =>
      rw [mirrorStep] at stepped
      split at stepped
      · rename_i value rest isComing
        cases stepped
        rw [MirrorSound, isComing, coming_cons] at sound
        exact sound
      · cases stepped
  | arriveRight =>
      rw [mirrorStep] at stepped
      split at stepped
      · rename_i value rest isComing
        cases stepped
        rw [MirrorSound, isComing, coming_cons] at sound
        exact sound
      · cases stepped

end Writes

end Quiczilla.Foundation
