import Hakawi.Rentals.Interleaving

/-!
# How rentals end

The sweep, the return, refunds and extensions at once. A refund expires a rental
whatever its end date; the sweep expires what it listed as overdue. Every write
is unconditional, so what a write means depends on what its handler had read.
-/

namespace Rentals.Stepwise

open Common Payments Store Effects Notes

/-- Why a handler expires this row: it listed it as overdue, or it was refunded. -/
inductive Grounds (system : System) (notes : Notes) (row : Rental) : Prop where
  | overdue (read : Rental) (task : notes.task = .sweep) (listed : read ∈ notes.reads)
      (same : SameRental read row) (active : read.status = .active)
      (past : row.endDate = read.endDate → row.endDate < system.now)
  | refunded (read : Rental) (payment : Payment) (task : notes.task = .refundCompleted payment.id)
      (found : system.ledger.findById payment.id = some payment) (listed : read ∈ notes.reads)
      (same : SameRental read row) (running : ¬ read.Ended)
      (sale : payment.pairFor "rental" = some (row.userId, row.bookId))

/-- What one turn makes of a row. -/
structure Turns (system : System) (notes : Notes) (row now : Rental) : Prop where
  same : SameRental row now
  expires : row.status ≠ .expired → now.status = .expired → Grounds system notes row
  asRead : row.Ended → now.status ≠ row.status →
    ∀ read ∈ notes.reads, read.id = row.id → read.status = row.status →
      row.status = .expired ∧ now.status = .returned ∧
        notes.task = .returnRental row.id row.userId

section Turn
variable {system : System} {notes : Notes}

theorem Turns.still (row : Rental) : Turns system notes row row :=
  ⟨.refl row, fun other same => absurd same other, fun _ changed => absurd rfl changed⟩

theorem grounds_of_mayExpire (informed : Remembers system notes) {row : Rental}
    (found : system.tables.findById row.id = some row) (may : notes.MayExpire row.id) :
    Grounds system notes row := by
  obtain ⟨read, listed, named, grounds⟩ := may
  have same : SameRental read row := by
    obtain ⟨later, foundLater, same⟩ := informed.rows read listed
    rw [named, found] at foundLater
    exact Option.some.inj foundLater ▸ same
  rcases grounds with ⟨task, lookup⟩ | ⟨paymentId, payment, bookId, revokes⟩
  · obtain ⟨active, past⟩ := informed.overdue lookup read listed
    exact .overdue read task listed same active fun kept => kept ▸ past
  · obtain ⟨paid, completed | refunded⟩ := informed.charged payment revokes.charged
    · rw [revokes.task] at completed
      cases completed
    · obtain ⟨reader, book⟩ := informed.byPair _ _ revokes.lookup read listed
      refine .refunded read payment refunded paid listed same ?_ ?_
      · rintro (expired | returned)
        · exact revokes.running.1 expired
        · exact revokes.running.2 returned
      · rw [same.userId, same.bookId, reader, book]
        exact Payment.pairFor_eq_some.mpr ⟨revokes.type, revokes.book, rfl⟩

/-- What an expiry makes of a row that its handler has read as it is. -/
theorem not_ended_of_mayExpire (informed : Remembers system notes) {id : Nat}
    (may : notes.MayExpire id) {read : Rental} (listed : read ∈ notes.reads) : ¬ read.Ended := by
  obtain ⟨other, -, -, grounds⟩ := may
  rcases grounds with ⟨-, lookup⟩ | ⟨paymentId, payment, bookId, revokes⟩
  · obtain ⟨active, -⟩ := informed.overdue lookup read listed
    simp [Rental.Ended, active]
  · rw [revokes.reads] at listed
    rw [List.mem_singleton.mp listed]
    rintro (expired | returned)
    · exact revokes.running.1 expired
    · exact revokes.running.2 returned

theorem apply_turns (informed : Remembers system notes) {id : Nat} {patch : RentalPatch}
    {extension : Option Extension} (allowed : notes.allowed (.update id patch extension))
    {row : Rental} (found : system.tables.findById id = some row) :
    Turns system notes row (patch.apply row) := by
  have named : row.id = id := Table.key_of_find? found
  refine ⟨apply_same allowed row, fun other expired => ?_, fun ended changed read listed own
    asRead => ?_⟩
  · cases extension with
    | none =>
      rcases allowed with ⟨-, may⟩ | ⟨⟨returnedAt, rfl⟩, -⟩
      · exact grounds_of_mayExpire informed (named ▸ found) (named ▸ may)
      · cases expired
    | some extension =>
      obtain ⟨_, _, _, extends_⟩ := allowed
      rw [extends_.patch] at expired
      exact absurd expired other
  · have readEnded : read.Ended := by
      unfold Rental.Ended at ended ⊢
      rwa [asRead]
    cases extension with
    | none =>
      rcases allowed with ⟨-, may⟩ | ⟨⟨returnedAt, rfl⟩, userId, other, task, lookup, reads, reader,
        running⟩
      · exact absurd readEnded (not_ended_of_mayExpire informed may listed)
      · rw [reads] at listed
        obtain rfl := List.mem_singleton.mp listed
        obtain ⟨later, foundLater, same⟩ := informed.rows read (reads ▸ listed)
        rw [own, named, found] at foundLater
        obtain rfl := Option.some.inj foundLater
        refine ⟨?_, rfl, ?_⟩
        · rcases ended with expired | returned
          · exact expired
          · exact absurd (asRead.trans returned) running
        · rw [task, named, same.userId, reader]
    | some extension =>
      obtain ⟨_, _, _, extends_⟩ := allowed
      rw [extends_.patch] at changed
      exact absurd rfl changed

end Turn

section Runs
variable (system : System) (tasks : List Task)

/-- The state after some turns. -/
def stateAfter (turns : List (Nat × Nat)) : System :=
  ((pool system tasks).run exec turns).state

/-- What the handlers have noted after some turns. -/
def notesAfter (turns : List (Nat × Nat)) : List Notes :=
  Pool.recallAll exec protocol (tasks.map .start) (pool system tasks) turns

variable {system tasks}

theorem next_task (notes : Notes) (call : Call) (answer : call.Answer) :
    (notes.next call answer).task = notes.task := by
  cases call with
  | update id patch extension => cases extension <;> rfl
  | _ => rfl

theorem recallAll_tasks (turns : List (Nat × Nat)) (all : List Notes)
    (running : Pool System Call Call.Answer (Except Failure Unit)) :
    (Pool.recallAll exec protocol all running turns).map Notes.task = all.map Notes.task := by
  induction turns generalizing all running with
  | nil => rfl
  | cons turn rest ih =>
    rw [Pool.recallAll, ih, Pool.recallTurn]
    split
    · rename_i op _ notes _ remembered
      obtain ⟨within, rfl⟩ := List.getElem?_eq_some_iff.mp remembered
      refine List.ext_getElem (by simp) fun k _ hk => ?_
      simp only [List.getElem_map, List.getElem_set]
      split
      · subst_vars
        exact next_task _ op _
      · rfl
    · rfl

theorem notesAfter_task {turns : List (Nat × Nat)} {i : Nat} {notes : Notes}
    (h : (notesAfter system tasks turns)[i]? = some notes) : tasks[i]? = some notes.task := by
  have same := recallAll_tasks turns (tasks.map .start) (pool system tasks)
  have started : (tasks.map Notes.start).map Notes.task = tasks := by
    rw [List.map_map]
    exact List.map_id _
  rw [← started, ← same, List.getElem?_map]
  exact congrArg (Option.map Notes.task) h

/-- One turn leaves a row as it is, or its handler had the grounds for what it does. -/
theorem turn_turns (early : List (Nat × Nat)) (turn : Nat × Nat) {id : Nat} {row : Rental}
    (found : (stateAfter system tasks early).tables.findById id = some row) :
    ∃ now, (stateAfter system tasks (early ++ [turn])).tables.findById id = some now ∧
      (now = row ∨ ∃ notes, (notesAfter system tasks early)[turn.1]? = some notes ∧
        Turns (stateAfter system tasks early) notes row now) := by
  obtain ⟨informed, follow⟩ := Pool.run_invariant_always informed_preserves
    (informed_start system tasks) (pool_follows system tasks) early
  have always : Pool.Meets exec protocol (fun _ _ _ _ => True) [turn]
      (notesAfter system tasks early) ((pool system tasks).run exec early) :=
    Pool.meets_of_forall exec protocol (fun _ _ _ _ => trivial) _ _ _
  simp only [stateAfter, Pool.run_append, Pool.run_cons, Pool.run_nil] at found ⊢
  rcases Pool.advance_cases follow always with ⟨same, -⟩ | ⟨notes, call, hn, allowed, -, hs, -, -⟩
  · rw [same]
    exact ⟨row, found, Or.inl rfl⟩
  · rw [hs]
    obtain ⟨now, foundNow, kept | ⟨patch, extension, rfl, rfl⟩⟩ := exec_findById turn.2 call found
    · exact ⟨now, foundNow, Or.inl kept⟩
    · exact ⟨_, foundNow, Or.inr ⟨notes, hn, apply_turns (informed _ _ hn) allowed found⟩⟩

/-- A row stays the same rental, and ended if it has ended. -/
theorem row_stays (early late : List (Nat × Nat)) {id : Nat} {row : Rental}
    (found : (stateAfter system tasks early).tables.findById id = some row) :
    ∃ now, (stateAfter system tasks (early ++ late)).tables.findById id = some now ∧
      SameRental row now := by
  induction late generalizing early row with
  | nil => exact ⟨row, by rwa [List.append_nil], .refl row⟩
  | cons turn rest ih =>
    obtain ⟨now, foundNow, turned⟩ := turn_turns early turn found
    have same : SameRental row now := by
      rcases turned with rfl | ⟨notes, -, turns⟩
      · exact .refl now
      · exact turns.same
    obtain ⟨later, foundLater, continued⟩ := ih (early ++ [turn]) foundNow
    rw [List.append_assoc] at foundLater
    exact ⟨later, foundLater, same.trans continued⟩

end Runs

/-- In every interleaving, whatever changes the status of a rental had grounds for it, and
a rental that has ended stays ended. -/
theorem endings_grounded (system : System) (tasks : List Task) (early : List (Nat × Nat))
    {id : Nat} {row : Rental}
    (found : (stateAfter system tasks early).tables.findById id = some row) :
    (∀ turn, ∃ now, (stateAfter system tasks (early ++ [turn])).tables.findById id = some now ∧
      (now.status ≠ row.status → ∃ notes, (notesAfter system tasks early)[turn.1]? = some notes ∧
        tasks[turn.1]? = some notes.task ∧ Turns (stateAfter system tasks early) notes row now)) ∧
    (row.Ended → ∀ late,
      ∃ now, (stateAfter system tasks (early ++ late)).tables.findById id = some now ∧
        now.Ended) := by
  constructor
  rotate_left
  · intro ended late
    obtain ⟨now, foundNow, same⟩ := row_stays early late found
    exact ⟨now, foundNow, same.ended ended⟩
  intro turn
  obtain ⟨now, foundNow, turned⟩ := turn_turns early turn found
  refine ⟨now, foundNow, fun changed => ?_⟩
  rcases turned with rfl | ⟨notes, hn, turns⟩
  · exact absurd rfl changed
  · exact ⟨notes, hn, notesAfter_task hn, turns⟩

/-- A rental is granted, and the handler of its refund has read it. -/
def refundUnderway : List (Nat × Nat) := List.replicate 4 (0, 0) ++ List.replicate 2 (1, 0)

/-- A rental of a day is granted, lapses and is swept. -/
def lapsedAndSwept : List (Nat × Nat) :=
  List.replicate 4 (0, 0) ++ (1, 86400001) :: List.replicate 2 (1, 0)

theorem endings_grounded_refund :
    let system := System.charged [rentalSale 7]
    let tasks := [Task.paymentCompleted 0, .refundCompleted 0]
    let row : Rental := ⟨0, "reader", "novel", .active, 0, 604800000, 0, 2, none, none, 0⟩
    (∀ turn, ∃ now,
      (stateAfter system tasks (refundUnderway ++ [turn])).tables.findById 0 = some now ∧
      (now.status ≠ row.status → ∃ notes,
        (notesAfter system tasks refundUnderway)[turn.1]? = some notes ∧
        tasks[turn.1]? = some notes.task ∧
        Turns (stateAfter system tasks refundUnderway) notes row now)) ∧
    (row.Ended → ∀ late, ∃ now,
      (stateAfter system tasks (refundUnderway ++ late)).tables.findById 0 = some now ∧
        now.Ended) :=
  endings_grounded (System.charged [rentalSale 7]) [Task.paymentCompleted 0, .refundCompleted 0]
    refundUnderway rfl

/-- A refund expires a rental that has seven days to run, and an expired rental becomes
returned. -/
theorem endings_moved :
    (let after := stateAfter (.charged [rentalSale 7]) [.paymentCompleted 0, .refundCompleted 0]
    let before := after refundUnderway
    let now := after (refundUnderway ++ [(1, 0)])
    (before.tables.findById 0).map Rental.status = some .active ∧
      (now.tables.findById 0).map (fun row => (row.status, decide (row.endDate < now.now))) =
        some (.expired, false)) ∧
    (let after := stateAfter (.charged [rentalSale 1])
      [.paymentCompleted 0, .sweep, .returnRental 0 "reader"]
    ((after lapsedAndSwept).tables.findById 0).map Rental.status = some .expired ∧
      ((after (lapsedAndSwept ++ List.replicate 3 (2, 0))).tables.findById 0).map Rental.status =
        some .returned) := by
  decide

end Rentals.Stepwise
