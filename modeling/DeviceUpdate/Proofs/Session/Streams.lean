import DeviceUpdate.Proofs.Session.Moves
import DeviceUpdate.Proofs.Stream.Moves

/-!
# What a step does to the streams

The engine's report and the mark that the image is applied stay once they are there. No step of a
call, and nothing that the engine does, takes them back.
-/

namespace DeviceUpdate

/-- A step of a call on a stream takes nothing back. -/
lemma Stream.grows_of_move {q : Stream.Point} {s t : Slot} (h : (q.move s).slot? = some t) :
    s.Grows t := by
  have hresult : ∃ st, (q.move s).result? = some (t, st) := by
    cases hmove : q.move s <;> simp_all [Stream.Move.slot?]
  obtain ⟨st, hst⟩ := hresult
  exact (Stream.goes_of_move hst).grows

/-- Every slot of the second world keeps what it knew in the first. -/
def World.Grows (w v : World) : Prop := ∀ n, (w.slot n).Grows (v.slot n)

lemma World.grows_of_streams {w v : World} (h : v.streams = w.streams) : w.Grows v := by
  intro n
  rw [World.slot, World.slot, h]
  exact .refl _

/-- A new stream starts where one that was never opened stands. -/
lemma World.grows_push {w v : World} (h : v.streams = w.streams.push {}) : w.Grows v := by
  intro n
  have heq : v.slot n = w.slot n := by
    simp only [World.slot, h, Array.getElem?_push]
    split <;> simp_all
  rw [heq]
  exact .refl _

lemma World.grows_setSlot {w v : World} {n : Nat} {slot : Slot}
    (h : v.streams = (w.setSlot n slot).streams) (hs : (w.slot n).Grows slot) : w.Grows v := by
  intro m
  by_cases hm : n = m ∧ n < w.streams.size
  · obtain ⟨rfl, hlt⟩ := hm
    have heq : v.slot n = slot := by simp [World.slot, h, World.setSlot, hlt]
    rw [heq]
    exact hs
  · have heq : v.slot m = w.slot m := by
      simp only [World.slot, h, World.setSlot, Array.getElem?_setIfInBounds]
      grind
    rw [heq]
    exact .refl _

namespace Session

variable {setup : Setup} {w w' : World} {st : Status}

/-- A call that goes on takes nothing back in any slot. -/
theorem Goes.grows {p : Point} (h : Goes setup w p w' st) : w.Grows w' := by
  have hstep {n : Nat} {q : Stream.Point} {slot : Slot}
      (hm : (q.move (w.slot n)).slot? = some slot) : w.Grows (w.setSlot n slot) :=
    World.grows_setSlot rfl (Stream.grows_of_move hm)
  cases h with
  | request h => exact World.grows_of_streams (by cases h <;> rfl)
  | data h => exact World.grows_of_streams (by cases h <;> rfl)
  | cancel h => exact World.grows_of_streams (by cases h <;> rfl)
  | reset h => exact World.grows_of_streams (by cases h <;> rfl)
  | prepared => exact World.grows_push rfl
  | stops h => exact hstep (by rw [h]; rfl)
  | stoppedOwn h => exact hstep (by rw [h]; rfl)
  | stopped h => exact hstep (by rw [h]; rfl)
  | pushes h => exact hstep (by rw [h]; rfl)
  | pushedFinal h => exact hstep (by rw [h]; rfl)
  | pushed h fine => exact hstep (by rw [h]; rfl)
  | notPushed e h fails => exact hstep (by rw [h]; rfl)
  | _ => exact World.grows_of_streams rfl

end Session

end DeviceUpdate
