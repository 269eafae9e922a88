import RetrySchedule.Journal

namespace RetrySchedule

theorem Note.number_of_fits (n : Int) (h : Numeral.fits n) :
    Note.number (.int n) = .ok (String.ofList (Numeral.ofInt n)) := by
  simp only [Note.number, Number.write, Number.fits, h, if_true]
  rfl

theorem Note.number_of_not_fits (n : Int) (h : Numeral.fits n = false) :
    Note.number (.int n) = .error (.numeral .tooLongToWrite) := by
  simp only [Note.number, Number.write, Number.fits, h, Bool.false_eq_true, if_false]
  rfl

theorem Note.message_tierServes {attempt : Int} (position : Nat) (tier : Text)
    (h : Numeral.fits attempt) :
    ∃ message, (Note.tierServes attempt position tier).message = .ok message := by
  rw [Note.message, Note.number_of_fits attempt h]
  exact ⟨_, rfl⟩

theorem Note.message_lastServes {attempt budget : Int} (tier : Text) (h : Numeral.fits attempt)
    (hbudget : Numeral.fits budget) :
    ∃ message, (Note.lastServes attempt (.int budget) tier).message = .ok message := by
  rw [Note.message, Note.number_of_fits attempt h, Note.number_of_fits budget hbudget]
  exact ⟨_, rfl⟩

theorem Note.message_scheduleRead (expression : Text) (tiers : Nat) {budget : Nat} (openEnd : Bool)
    (h : Numeral.fits budget) :
    ∃ message, (Note.scheduleRead expression tiers budget openEnd).message = .ok message := by
  rw [Note.message, Note.number_of_fits budget h]
  exact ⟨_, rfl⟩

theorem Note.message_scheduleRead_of_not_fits (expression : Text) (tiers : Nat) {budget : Nat}
    (openEnd : Bool) (h : Numeral.fits budget = false) :
    (Note.scheduleRead expression tiers budget openEnd).message =
      .error (.numeral .tooLongToWrite) := by
  rw [Note.message, Note.number_of_not_fits budget h]
  rfl

theorem Note.message_lastServes_of_not_fits {attempt : Int} (budget : Number) (tier : Text)
    (h : Numeral.fits attempt = false) :
    (Note.lastServes attempt budget tier).message = .error (.numeral .tooLongToWrite) := by
  rw [Note.message, Note.number_of_not_fits attempt h]
  rfl

theorem Note.message_capped (wait : Binary64) {cap : Number} {rounded : Binary64}
    (h : cap.toReal? = some rounded) : ∃ message, (Note.capped wait cap).message = .ok message := by
  rw [Note.message, Note.twoPlaces, h]
  exact ⟨_, rfl⟩

namespace Outcome

variable {α β : Type}

def notes (outcome : Outcome α) : List Note :=
  outcome.journal.map Entry.note

theorem bind_of_ok (first : Outcome α) (next : α → Outcome β) (value : α)
    (h : first.result = .ok value) :
    first >>= next = ⟨first.journal ++ (next value).journal, (next value).result⟩ := by
  change first.andThen next = _
  rw [andThen, h]

theorem bind_of_error (first : Outcome α) (next : α → Outcome β) (fault : Fault)
    (h : first.result = .error fault) : first >>= next = ⟨first.journal, .error fault⟩ := by
  change first.andThen next = _
  rw [andThen, h]

theorem result_bind_of_ok (first : Outcome α) (next : α → Outcome β) (value : α)
    (h : first.result = .ok value) : (first >>= next).result = (next value).result := by
  rw [bind_of_ok first next value h]

theorem result_bind_of_error (first : Outcome α) (next : α → Outcome β) (fault : Fault)
    (h : first.result = .error fault) : (first >>= next).result = .error fault := by
  rw [bind_of_error first next fault h]

theorem notes_bind_of_ok (first : Outcome α) (next : α → Outcome β) (value : α)
    (h : first.result = .ok value) :
    (first >>= next).notes = first.notes ++ (next value).notes := by
  rw [bind_of_ok first next value h, notes, List.map_append, notes, notes]

theorem notes_bind_of_error (first : Outcome α) (next : α → Outcome β) (fault : Fault)
    (h : first.result = .error fault) : (first >>= next).notes = first.notes := by
  rw [bind_of_error first next fault h, notes, notes]

theorem map_bind {γ : Type} (f : β → γ) (first : Outcome α) (next : α → Outcome β) :
    f <$> (first >>= next) = first >>= fun value => f <$> next value := by
  have hmap : ∀ outcome : Outcome β, f <$> outcome = outcome.andThen fun value => pure (f value) :=
    fun _ => rfl
  cases hresult : first.result with
  | ok value =>
    rw [bind_of_ok first _ value hresult, bind_of_ok first _ value hresult, hmap, hmap]
    unfold andThen
    cases (next value).result with
    | ok result => simp only [List.append_assoc]
    | error fault => rfl
  | error fault =>
    rw [bind_of_error first _ fault hresult, bind_of_error first _ fault hresult]
    rfl

theorem notes_pure (value : α) : (pure value : Outcome α).notes = [] := rfl

theorem lift_bind_ok (value : α) (next : α → Outcome β) :
    (liftM (Except.ok value : Except Fault α) : Outcome α) >>= next = next value := rfl

theorem leave_of_ok (note : Note) (message : String) (h : note.message = .ok message) :
    leave note = ⟨[⟨note, message⟩], .ok ()⟩ := by
  rw [leave, h]

theorem leave_bind_pure (note : Note) (message : String) (value : α)
    (h : note.message = .ok message) :
    (leave note >>= fun _ => pure value) = ⟨[⟨note, message⟩], .ok value⟩ := by
  rw [leave_of_ok note message h]
  rfl

theorem leave_of_error (note : Note) (fault : Fault) (h : note.message = .error fault) :
    leave note = fail fault := by
  rw [leave, h]

/-- A note that cannot be made takes the place of what is behind it. -/
theorem leave_bind_of_error (note : Note) (next : Unit → Outcome β) (fault : Fault)
    (h : note.message = .error fault) : leave note >>= next = fail fault := by
  rw [leave_of_error note fault h]
  rfl

end Outcome
end RetrySchedule
