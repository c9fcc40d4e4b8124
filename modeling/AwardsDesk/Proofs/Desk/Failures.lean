import AwardsDesk.Desk.Backend

/-!
# Failures of backends

A request to a backend fails in one of two ways: a failure is reported, by the store or in a
response, or a response cannot be read.  A backend never fails for a reason that only the
board can have.

Main definitions:

- Definition {lit}`Board.Error.OfBackend`: errors that come from a backend.

Main results:

- Theorem {lit}`Backend.error_of_finish`: a backend fails with no other error.
-/

namespace AwardsDesk

/-- An error of a backend: a failure that it reports, or a response that cannot be read. -/
def Board.Error.OfBackend (e : Board.Error) : Prop :=
  (∃ reason, e = .backend reason) ∨ ∃ fault, e = .decode fault

namespace Response

variable {e : Board.Error}

/-- A response that has no value is a failure, or cannot be read. -/
theorem error_of_envelope {body : String} (h : envelope body = .error e) : e.OfBackend := by
  unfold envelope at h
  split at h
  · exact Or.inr ⟨_, (Except.error.inj h).symm⟩
  · split at h
    · exact Or.inl ⟨_, (Except.error.inj h).symm⟩
    · simp at h

/-- A value that is not of the expected form cannot be read. -/
theorem error_of_decode {α : Type} {schema : Json.Schema α} {v : Json.Value}
    (h : decode schema v = .error e) : e.OfBackend := by
  unfold decode at h
  cases hread : schema.read v with
  | ok a =>
      rw [hread] at h
      cases h
  | error fault =>
      rw [hread] at h
      exact Or.inr ⟨_, (Except.error.inj h).symm⟩

end Response

/-- A wire fails by a failure that is reported, or a response that cannot be read. -/
theorem Wire.error_of_read {body : String} {r : Board.Request} {e : Board.Error}
    (h : read body r = .error e) : e.OfBackend := by
  cases henvelope : Response.envelope body with
  | error e' =>
      have heq : e' = e := by
        cases r <;>
          simpa [read, Response.awards, Response.pickup, Response.notes, henvelope, bind,
            Except.bind] using h
      exact heq ▸ Response.error_of_envelope henvelope
  | ok v =>
      cases r with
      | fetchAwards event needDivisions =>
          simp only [read, Response.awards, henvelope, bind, Except.bind] at h
          split at h
          · exact Response.error_of_decode h
          · exact Or.inr ⟨_, (Except.error.inj h).symm⟩
      | setPickedUp event awardee was =>
          simp only [read, Response.pickup, henvelope, bind, Except.bind] at h
          exact Response.error_of_decode h
      | fetchNotes event awardee =>
          simp only [read, Response.notes, henvelope, bind, Except.bind] at h
          exact Response.error_of_decode h
      | saveNotes event awardee text =>
          simp only [read, Response.notes, henvelope, bind, Except.bind] at h
          exact Response.error_of_decode h

/-- An event in a store fails by a failure that it reports. -/
theorem Store.Event.error_of_answer {event : Store.Event} {r : Board.Request} {e : Board.Error}
    (h : (event.answer r).2 = .error e) : e.OfBackend := by
  cases r with
  | fetchAwards id needDivisions => simp [answer] at h
  | setPickedUp id awardee was =>
      simp only [answer] at h
      split at h <;> simp at h
  | fetchNotes id awardee =>
      simp only [answer] at h
      split at h
      · exact Or.inl ⟨_, (Except.error.inj h).symm⟩
      · simp at h
  | saveNotes id awardee text =>
      simp only [answer] at h
      split at h
      · exact Or.inl ⟨_, (Except.error.inj h).symm⟩
      · simp at h

/-- A backend fails by a failure that it reports, or a response that cannot be read. -/
theorem Backend.error_of_finish (backend : Backend) {r : Board.Request} {e : Board.Error}
    (h : (backend.finish r).2 = .error e) : e.OfBackend := by
  cases backend with
  | wire w =>
      simp only [finish, Wire.finish] at h
      split at h
      · exact Or.inl ⟨_, (Except.error.inj h).symm⟩
      · exact Wire.error_of_read h
  | store s =>
      simp only [finish, Store.finish] at h
      split at h
      · exact Or.inl ⟨_, (Except.error.inj h).symm⟩
      · split at h
        · exact Or.inl ⟨_, (Except.error.inj h).symm⟩
        · exact Store.Event.error_of_answer h

end AwardsDesk
