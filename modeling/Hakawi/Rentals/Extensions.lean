import Hakawi.Rentals.Endings

/-!
# Extensions and the end date

An extension is read, computed and written back, and nothing records that its
payment has been dealt with. As long as every extension is written to a running
rental that is as it was read, and for a payment not yet written for, the end
date is the original one plus what was paid for.
-/

namespace Rentals.Stepwise

open Common Payments Store Effects Notes

def Write.extension? : Write → Option Extension
  | .created _ => none
  | .extended extension => some extension

namespace System
variable (system : System)

def allExtensions : List Extension := system.history.filterMap Write.extension?

/-- The extensions written to a rental. -/
def extensions (rentalId : Nat) : List Extension :=
  system.allExtensions.filter (·.rentalId = rentalId)

/-- How far the extensions of a rental move its end date. -/
def extended (rentalId : Nat) : Int :=
  ((system.extensions rentalId).map fun extension => ⌊extension.days⌋ * MS_PER_DAY).sum

end System

/-- The payment is for this many more days of this rental. -/
structure PaysFor (payment : Payment) (rental : Rental) (days : Rat) : Prop where
  type : payment.metaString "type" = some "rental_extension"
  named : (payment.metaString "rentalId").bind readId = some rental.id
  days : metaDays payment "extensionDays" = some days
  reader : rental.userId = payment.userId

/-- The end date and the count of a rental are those of its extensions. -/
structure Accounted (system : System) (rental : Rental) : Prop where
  dated : ∃ original, .created original ∈ system.history ∧ original.id = rental.id ∧
    rental.endDate = original.endDate + system.extended rental.id
  counted : rental.extendedCount = (system.extensions rental.id).length
  bounded : rental.extendedCount ≤ rental.maxExtensions
  paid : ∀ extension ∈ system.extensions rental.id, ∃ payment,
    system.ledger.findById extension.paymentId = some payment ∧
      PaysFor payment rental extension.days

/-- An extension is written to a running rental that is as its handler read it, for a
payment that no extension was written for. -/
def Undisturbed (_ : Nat) (system : System) (notes : Notes) : Call → Prop
  | .update id _ (some extension) =>
    (∀ row ∈ system.tables.findById id, ¬ row.Ended ∧ ∃ read ∈ notes.reads,
      row.endDate = read.endDate ∧ row.extendedCount = read.extendedCount) ∧
    ∀ earlier ∈ system.allExtensions, earlier.paymentId ≠ extension.paymentId
  | _ => True

instance : (elapsed : Nat) → (system : System) → (notes : Notes) → (call : Call) →
    Decidable (Undisturbed elapsed system notes call)
  | _, _, _, .update _ _ (some _) => inferInstanceAs (Decidable ((∀ row ∈ _, _) ∧ ∀ earlier ∈ _, _))
  | _, _, _, .update _ _ none => .isTrue trivial
  | _, _, _, .findPayment _ => .isTrue trivial
  | _, _, _, .findById _ => .isTrue trivial
  | _, _, _, .findByUserAndBook _ _ => .isTrue trivial
  | _, _, _, .findOverdue => .isTrue trivial
  | _, _, _, .create _ _ _ => .isTrue trivial
  | _, _, _, .createExtension _ _ _ _ => .isTrue trivial
  | _, _, _, .readClock => .isTrue trivial
  | _, _, _, .emit _ => .isTrue trivial

section Calls
variable {system after : System}

theorem extensions_of_all (same : after.allExtensions = system.allExtensions) (id : Nat) :
    after.extensions id = system.extensions id := by
  rw [System.extensions, System.extensions, same]

/-- Writing to other columns keeps the account. -/
theorem Accounted.keep {rental now : Rental} (h : Accounted system rental)
    (same : SameRental rental now) (endDate : now.endDate = rental.endDate)
    (count : now.extendedCount = rental.extendedCount)
    (all : after.extensions rental.id = system.extensions rental.id)
    (history : ∀ original, .created original ∈ system.history → .created original ∈ after.history)
    (ledger : after.ledger = system.ledger) : Accounted after now := by
  obtain ⟨⟨original, created, named, dated⟩, counted, bounded, paid⟩ := h
  refine ⟨⟨original, history original created, named.trans same.id.symm, ?_⟩, ?_, ?_, ?_⟩
  · rw [endDate, dated, same.id, System.extended, System.extended, all]
  · rw [count, counted, same.id, all]
  · rw [count, same.maxExtensions]
    exact bounded
  · intro extension he
    rw [same.id, all] at he
    obtain ⟨payment, found, type, rentalId, days, reader⟩ := paid extension he
    refine ⟨payment, ?_, type, ?_, days, ?_⟩
    · rw [ledger]
      exact found
    · rw [same.id]
      exact rentalId
    · rw [same.userId]
      exact reader

/-- The books of a run: every row is accounted for, and no payment was used twice. -/
structure Booked (system : System) : Prop where
  accounted : ∀ id rental, system.tables.findById id = some rental → Accounted system rental
  known : ∀ extension ∈ system.allExtensions, extension.rentalId < system.tables.rentals.next
  once : (system.allExtensions.map Extension.paymentId).Nodup

theorem Booked.opening (ledger : Ledger) (now : Int) : Booked (.opening ledger now) :=
  ⟨fun _ _ => nofun, fun _ => nofun, List.nodup_nil⟩

section Step
variable {notes : Notes} {elapsed : Nat}

/-- What leaves the rentals and the history alone keeps the books. -/
theorem Booked.same (h : Booked system) (rentals : after.tables.rentals = system.tables.rentals)
    (history : after.history = system.history) (ledger : after.ledger = system.ledger) :
    Booked after := by
  have all : after.allExtensions = system.allExtensions := by
    rw [System.allExtensions, history, System.allExtensions]
  refine ⟨fun id row found => ?_, ?_, ?_⟩
  · rw [RentalsTables.findById, rentals] at found
    exact (h.accounted id row found).keep (.refl row) rfl rfl (extensions_of_all all _)
      (fun _ created => history ▸ created) ledger
  · rw [all, rentals]
    exact h.known
  · rw [all]
    exact h.once

/-- A change of status keeps the books. -/
theorem Booked.restate (h : Booked system) {id : Nat} {patch : RentalPatch}
    (allowed : notes.allowed (.update id patch none)) :
    Booked (exec elapsed system (.update id patch none)).2 := by
  let after := (exec elapsed system (.update id patch none)).2
  have columns : patch.endDate = none ∧ patch.extendedCount = none := by
    rcases allowed with ⟨rfl, -⟩ | ⟨⟨_, rfl⟩, -⟩
    · exact ⟨rfl, rfl⟩
    · exact ⟨rfl, rfl⟩
  have history : after.history = system.history := List.append_nil _
  have all : after.allExtensions = system.allExtensions := by
    rw [System.allExtensions, history, System.allExtensions]
  have rows : ∀ j, after.tables.findById j =
      if j = id then (system.tables.findById j).map patch.apply else system.tables.findById j :=
    fun j => Table.find?_modify _ _ _ patch.apply_id j
  refine ⟨fun j now foundNow => ?_, ?_, ?_⟩
  · change after.tables.findById j = some now at foundNow
    rw [rows] at foundNow
    split at foundNow
    · obtain ⟨row, found, rfl⟩ := Option.map_eq_some_iff.mp foundNow
      refine (h.accounted j row found).keep (apply_same allowed row) ?_ ?_
        (extensions_of_all all _) (fun _ created => history ▸ created) rfl
      · rw [RentalPatch.apply, columns.1, Option.getD_none]
      · rw [RentalPatch.apply, columns.2, Option.getD_none]
    · exact (h.accounted j now foundNow).keep (.refl now) rfl rfl (extensions_of_all all _)
        (fun _ created => history ▸ created) rfl
  · change ∀ extension ∈ after.allExtensions, _ < system.tables.rentals.next
    rw [all]
    exact h.known
  · change (after.allExtensions.map _).Nodup
    rw [all]
    exact h.once

/-- A rental that is created has no extensions yet. -/
theorem Booked.create (h : Booked system) (elapsed : Nat) (userId bookId : String) (days : Rat) :
    Booked (exec elapsed system (.create userId bookId days)).2 := by
  let created := (system.tables.create (system.now + elapsed) userId bookId days).1
  let after := (exec elapsed system (.create userId bookId days)).2
  have history : after.history = system.history ++ [.created created] := rfl
  have all : after.allExtensions = system.allExtensions := by
    rw [System.allExtensions, history, List.filterMap_append, System.allExtensions]
    exact List.append_nil _
  have rows : ∀ id, after.tables.findById id =
      if id = system.tables.rentals.next then some created else system.tables.findById id :=
    fun id => Table.find?_insert _ _ _ _
  refine ⟨fun id rental found => ?_, ?_, ?_⟩
  · change after.tables.findById id = some rental at found
    rw [rows] at found
    split at found
    · obtain rfl := Option.some.inj found
      have none : after.extensions created.id = [] := by
        rw [extensions_of_all all]
        refine List.filter_eq_nil_iff.mpr fun extension he => ?_
        have below := h.known extension he
        simp only [decide_eq_true_eq]
        exact Nat.ne_of_lt below
      refine ⟨⟨created, ?_, rfl, ?_⟩, ?_, Nat.zero_le _, ?_⟩
      · exact history ▸ List.mem_append_right _ (List.mem_singleton_self _)
      · change _ = created.endDate + after.extended created.id
        rw [System.extended, none]
        simp
      · change created.extendedCount = (after.extensions created.id).length
        rw [none]
        rfl
      · change ∀ extension ∈ after.extensions created.id, _
        rw [none]
        exact fun _ => nofun
    · refine (h.accounted id rental found).keep (.refl rental) rfl rfl (extensions_of_all all _)
        (fun _ earlier => ?_) rfl
      exact history ▸ List.mem_append_left _ earlier
  · change ∀ extension ∈ after.allExtensions, _ < system.tables.rentals.next + 1
    rw [all]
    exact fun extension he => Nat.lt_succ_of_lt (h.known extension he)
  · change (after.allExtensions.map _).Nodup
    rw [all]
    exact h.once

/-- An undisturbed extension moves the end date and the count of its rental by itself. -/
theorem Booked.extend (h : Booked system) (informed : Remembers system notes) {id : Nat}
    {patch : RentalPatch} {extension : Extension}
    (allowed : notes.allowed (.update id patch (some extension)))
    (undisturbed : Undisturbed elapsed system notes (.update id patch (some extension))) :
    Booked (exec elapsed system (.update id patch (some extension))).2 := by
  obtain ⟨paymentId, payment, read, extends_⟩ := allowed
  obtain ⟨asRead, unused⟩ := undisturbed
  let after := (exec elapsed system (.update id patch (some extension))).2
  have history : after.history = system.history ++ [.extended extension] := rfl
  have all : after.allExtensions = system.allExtensions ++ [extension] := by
    rw [System.allExtensions, history, List.filterMap_append, System.allExtensions]
    rfl
  have rows : ∀ j, after.tables.findById j =
      if j = id then (system.tables.findById j).map patch.apply else system.tables.findById j :=
    fun j => Table.find?_modify _ _ _ patch.apply_id j
  have named : read.id = id :=
    informed.byId id extends_.lookup read (by rw [extends_.reads]; exact List.mem_singleton_self _)
  obtain ⟨row, found, same⟩ : ∃ row, system.tables.findById id = some row ∧ SameRental read row := by
    rw [← named]
    exact informed.rows read (by rw [extends_.reads]; exact List.mem_singleton_self _)
  have current : row.endDate = read.endDate ∧ row.extendedCount = read.extendedCount := by
    obtain ⟨-, read', listed, dated, counted⟩ := asRead row found
    rw [extends_.reads] at listed
    rw [List.mem_singleton.mp listed] at dated counted
    exact ⟨dated, counted⟩
  have rowId : row.id = id := Table.key_of_find? found
  have own : after.extensions id = system.extensions id ++ [extension] := by
    rw [System.extensions, all, List.filter_append, System.extensions,
      List.filter_singleton, extends_.names.1]
    simp
  have others : ∀ j, j ≠ id → after.extensions j = system.extensions j := by
    intro j other
    rw [System.extensions, all, List.filter_append, System.extensions, List.filter_singleton,
      extends_.names.1]
    simp [Ne.symm other]
  have keepsCreated : ∀ original, .created original ∈ system.history →
      .created original ∈ after.history :=
    fun _ earlier => history ▸ List.mem_append_left _ earlier
  refine ⟨fun j now foundNow => ?_, ?_, ?_⟩
  · change after.tables.findById j = some now at foundNow
    change Accounted after now
    rw [rows] at foundNow
    split at foundNow
    · subst j
      rw [found] at foundNow
      obtain rfl := Option.some.inj foundNow
      obtain ⟨⟨original, created, origin, dated⟩, counted, bounded, paid⟩ :=
        h.accounted id row found
      have patched : patch.apply row = { row with
          endDate := addDays row.endDate extension.days
          extendedCount := row.extendedCount + 1 } := by
        rw [extends_.patch, current.1, current.2]
        rfl
      rw [patched]
      refine ⟨⟨original, keepsCreated original created, origin, ?_⟩, ?_, ?_, ?_⟩
      · simp only [addDays, System.extended, rowId, own, List.map_append, List.sum_append,
          List.map_singleton, List.sum_singleton]
        rw [dated, System.extended, rowId]
        omega
      · simp only [rowId, own, List.length_append, List.length_singleton]
        rw [counted, rowId]
      · have room := extends_.room
        simp only [current.2, same.maxExtensions]
        exact room
      · intro other he
        simp only [rowId, own, List.mem_append, List.mem_singleton] at he
        rcases he with he | rfl
        · obtain ⟨earlier, foundEarlier, pays⟩ := paid other (rowId ▸ he)
          exact ⟨earlier, foundEarlier, pays.type, pays.named, pays.days, pays.reader⟩
        · refine ⟨payment, ?_, extends_.type, ?_, extends_.days, ?_⟩
          · rw [extends_.names.2]
            exact (informed.charged payment extends_.charged).1
          · rw [extends_.rental]
            exact congrArg some rowId.symm
          · exact same.userId.trans extends_.reader
    · rename_i other
      have nowId : now.id = j := Table.key_of_find? foundNow
      exact (h.accounted j now foundNow).keep (.refl now) rfl rfl
        (others now.id (nowId ▸ other)) keepsCreated rfl
  · change ∀ e ∈ after.allExtensions, e.rentalId < system.tables.rentals.next
    intro e he
    rw [all, List.mem_append, List.mem_singleton] at he
    rcases he with he | rfl
    · exact h.known e he
    · rw [extends_.names.1]
      exact Table.lt_next_of_find? found
  · change (after.allExtensions.map _).Nodup
    rw [all, List.map_append, List.map_singleton]
    refine List.Nodup.append h.once (List.nodup_singleton _) fun used he hs => ?_
    obtain ⟨e, earlier, rfl⟩ := List.mem_map.mp he
    exact unused e earlier (List.mem_singleton.mp hs)

/-- An undisturbed call lowers no count, and moves no rental that has ended. -/
theorem undisturbed_row {call : Call} (allowed : notes.allowed call)
    (undisturbed : Undisturbed elapsed system notes call) {id : Nat}
    {row now : Rental} (found : system.tables.findById id = some row)
    (foundNow : (exec elapsed system call).2.tables.findById id = some now) :
    row.extendedCount ≤ now.extendedCount ∧
      (row.Ended → now.endDate = row.endDate ∧ now.extendedCount = row.extendedCount) := by
  obtain ⟨now', found', kept | ⟨patch, extension, rfl, applied⟩⟩ := exec_findById elapsed call found
  · obtain rfl := Option.some.inj (foundNow.symm.trans found')
    subst kept
    exact ⟨le_refl _, fun _ => ⟨rfl, rfl⟩⟩
  · obtain rfl := Option.some.inj (foundNow.symm.trans found')
    subst applied
    cases extension with
    | none =>
      rcases allowed with ⟨rfl, -⟩ | ⟨⟨_, rfl⟩, -⟩
      · exact ⟨le_refl _, fun _ => ⟨rfl, rfl⟩⟩
      · exact ⟨le_refl _, fun _ => ⟨rfl, rfl⟩⟩
    | some extension =>
      obtain ⟨running, read, listed, dated, counted⟩ := undisturbed.1 row found
      obtain ⟨_, _, other, extends_⟩ := allowed
      rw [extends_.reads] at listed
      obtain rfl := List.mem_singleton.mp listed
      refine ⟨?_, fun ended => absurd ended running⟩
      rw [extends_.patch]
      simp only [RentalPatch.apply, Option.getD_some]
      omega

theorem allExtensions_exec (system : System) (call : Call) {extension : Extension}
    (h : extension ∈ system.allExtensions) :
    extension ∈ (exec elapsed system call).2.allExtensions := by
  have grows : ∀ write ∈ system.history, write ∈ (exec elapsed system call).2.history := by
    intro write hw
    cases call with
    | create userId bookId days => exact List.mem_append_left _ hw
    | update id patch extension => exact List.mem_append_left _ hw
    | _ => exact hw
  obtain ⟨write, hw, is⟩ := List.mem_filterMap.mp h
  exact List.mem_filterMap.mpr ⟨write, grows write hw, is⟩

/-- The extension a handler has written is in the books, and no count has gone down since
the handler read it. -/
structure Progress (system : System) (notes : Notes) : Prop where
  wrote : ∀ extension, notes.wrote = some extension → extension ∈ system.allExtensions
  counts : ∀ read ∈ notes.reads, ∀ row, system.tables.findById read.id = some row →
    read.extendedCount ≤ row.extendedCount

theorem Progress.exec {acting : Notes} (h : Progress system notes)
    (rows : Remembers system notes) {call : Call}
    (allowed : acting.allowed call) (undisturbed : Undisturbed elapsed system acting call) :
    Progress (exec elapsed system call).2 notes := by
  refine ⟨fun extension wrote => allExtensions_exec system call (h.wrote extension wrote),
    fun read listed now foundNow => ?_⟩
  obtain ⟨row, found, -⟩ := rows.rows read listed
  have lower := h.counts read listed row found
  have later := (undisturbed_row allowed undisturbed found foundNow).1
  omega

theorem Progress.next (h : Progress system notes) (informed : Remembers system notes) {call : Call}
    (allowed : notes.allowed call) (undisturbed : Undisturbed elapsed system notes call) :
    Progress (Stepwise.exec elapsed system call).2
      (notes.next call (Stepwise.exec elapsed system call).1) := by
  have kept := h.exec informed allowed undisturbed
  have fresh : ∀ reads : List Rental, (∀ read ∈ reads, read ∈ system.tables.rentals.rows) →
      ∀ read ∈ reads, ∀ row, system.tables.findById read.id = some row →
        read.extendedCount ≤ row.extendedCount := by
    intro reads present read listed row found
    have own : system.tables.findById read.id = some read :=
      Table.find?_eq_some_iff.mpr ⟨present read listed, rfl⟩
    rw [Option.some.inj (own.symm.trans found)]
  cases call with
  | findById id =>
    exact ⟨kept.wrote, fresh _ fun read listed => Table.mem_of_find? (mem_of_toList listed)⟩
  | findByUserAndBook userId bookId =>
    exact ⟨kept.wrote, fresh _ fun read listed =>
      List.mem_of_mem_filter (newest_mem (mem_of_toList listed))⟩
  | findOverdue => exact ⟨kept.wrote, fresh _ fun read listed => List.mem_of_mem_filter listed⟩
  | update id patch extension =>
    cases extension with
    | none => exact kept
    | some extension =>
      refine ⟨fun wrote same => ?_, kept.counts⟩
      obtain rfl := Option.some.inj same
      refine List.mem_filterMap.mpr ⟨.extended extension, ?_, rfl⟩
      exact List.mem_append_right _ (List.mem_singleton_self _)
  | _ => exact ⟨kept.wrote, kept.counts⟩

theorem Booked.exec (h : Booked system) (informed : Remembers system notes) {call : Call}
    (allowed : notes.allowed call) (undisturbed : Undisturbed elapsed system notes call) :
    Booked (Stepwise.exec elapsed system call).2 := by
  cases call with
  | create userId bookId days => exact h.create elapsed userId bookId days
  | update id patch extension =>
    cases extension with
    | none => exact h.restate allowed
    | some extension => exact h.extend informed allowed undisturbed
  | _ => exact h.same rfl rfl rfl

end Step

/-- The invariant of a run in which every extension is undisturbed. -/
structure Orderly (system : System) (all : List Notes) : Prop where
  informed : Informed system all
  booked : Booked system
  progress : ∀ (i : Nat) (notes : Notes), all[i]? = some notes → Progress system notes

theorem orderly_start (ledger : Ledger) (now : Int) (tasks : List Task) :
    Orderly (.opening ledger now) (tasks.map .start) := by
  refine ⟨informed_start _ tasks, .opening ledger now, fun i notes hn => ?_⟩
  obtain ⟨task, -, rfl⟩ := List.mem_map.mp (List.mem_of_getElem? hn)
  exact ⟨fun _ => nofun, fun _ => nofun⟩

theorem orderly_preserves : Pool.Preserves exec protocol Undisturbed Orderly := by
  intro elapsed system all i notes call hn orderly allowed undisturbed
  have own := orderly.informed i notes hn
  have informed := informed_preserves elapsed system all i notes call hn orderly.informed allowed
    undisturbed
  refine ⟨informed, orderly.booked.exec own allowed undisturbed, ?_⟩
  intro j other hj
  rw [Pool.getElem?_set_of_some hn] at hj
  split at hj
  · rw [← Option.some.inj hj]
    exact (orderly.progress i notes hn).next own allowed undisturbed
  · exact (orderly.progress j other hj).exec (orderly.informed j other hj) allowed undisturbed

end Calls

/-- A rental that exists is found by whoever looks it up from now on. -/
structure Finds (rentalId i : Nat) (system : System) (all : List Notes) : Prop where
  informed : Informed system all
  exists_ : ∃ row, system.tables.findById rentalId = some row
  found : ∀ notes, all[i]? = some notes → notes.lookup = some (.findById rentalId) →
    notes.reads ≠ []

theorem finds_preserves {ok : Nat → System → Notes → Call → Prop} {rentalId i : Nat} :
    Pool.Preserves exec protocol ok (Finds rentalId i) := by
  intro elapsed system all j notes call hn finds allowed hok
  obtain ⟨row, present⟩ := finds.exists_
  have informed := informed_preserves elapsed system all j notes call hn finds.informed allowed hok
  obtain ⟨now, later, -⟩ := exec_same elapsed allowed present
  refine ⟨informed, ⟨now, later⟩, fun own ho lookup => ?_⟩
  rw [Pool.getElem?_set_of_some hn] at ho
  split at ho
  · rename_i same
    subst same
    obtain rfl := Option.some.inj ho
    cases call with
    | findById id =>
      have asked : id = rentalId := Call.findById.inj (Option.some.inj lookup)
      change (system.tables.findById id).toList ≠ []
      rw [asked, present]
      exact List.cons_ne_nil _ _
    | findByUserAndBook userId bookId => cases lookup
    | findOverdue => cases lookup
    | update id patch extension =>
      cases extension with
      | none => exact finds.found notes hn lookup
      | some extension => exact finds.found notes hn lookup
    | _ => exact finds.found notes hn lookup
  · exact finds.found own ho lookup

section Runs
variable {ledger : Ledger} {now : Int} {tasks : List Task}

/-- A task that had no turn in the first part of a run, and is through after the second. -/
structure Dealt (system : System) (tasks : List Task) (early late : List (Nat × Nat)) (i : Nat)
    (task : Task) : Prop where
  given : tasks[i]? = some task
  unbegun : ∀ turn ∈ early, turn.1 ≠ i
  through : ∃ result, ((pool system tasks).run exec (early ++ late)).threads[i]? =
    some (.done result)

theorem notesAfter_given {system : System} (turns : List (Nat × Nat)) {i : Nat} {task : Task}
    (given : tasks[i]? = some task) :
    ∃ notes, (notesAfter system tasks turns)[i]? = some notes ∧ notes.task = task := by
  have tasksSame : (notesAfter system tasks turns).map Notes.task = tasks := by
    rw [notesAfter, recallAll_tasks, List.map_map]
    exact List.map_id _
  rw [← tasksSame, List.getElem?_map] at given
  exact Option.map_eq_some_iff.mp given

/-- In an undisturbed run, a rental that has ended keeps its end date and its count. -/
theorem ended_unmoved {system : System} {early late : List (Nat × Nat)}
    (undisturbed : Pool.Meets exec protocol Undisturbed (early ++ late) (tasks.map .start)
      (pool system tasks)) {id : Nat} {row : Rental}
    (found : (stateAfter system tasks early).tables.findById id = some row) (ended : row.Ended) :
    ∃ later, (stateAfter system tasks (early ++ late)).tables.findById id = some later ∧
      later.endDate = row.endDate ∧ later.extendedCount = row.extendedCount := by
  obtain ⟨-, meets⟩ := (Pool.meets_append _ _ _ _ _ _).mp undisturbed
  obtain ⟨-, follow⟩ := Pool.run_invariant_always informed_preserves
    (informed_start system tasks) (pool_follows system tasks) early
  let unmoved : System → List Notes → Prop := fun s _ => ∃ later,
    s.tables.findById id = some later ∧ later.Ended ∧ later.endDate = row.endDate ∧
      later.extendedCount = row.extendedCount
  have preserves : Pool.Preserves exec protocol Undisturbed unmoved := by
    rintro elapsed s all i notes call - ⟨later, present, finished, dated, counted⟩ allowed calm
    obtain ⟨next, foundNext, same⟩ := exec_same elapsed allowed present
    obtain ⟨-, still⟩ := undisturbed_row allowed calm present foundNext
    obtain ⟨sameDate, sameCount⟩ := still finished
    exact ⟨next, foundNext, same.ended finished, sameDate.trans dated, sameCount.trans counted⟩
  have start : unmoved ((pool system tasks).run exec early).state
      (notesAfter system tasks early) := ⟨row, found, ended, rfl, rfl⟩
  obtain ⟨⟨later, present, -, dated, counted⟩, -⟩ :=
    Pool.run_invariant preserves start follow meets
  refine ⟨later, ?_, dated, counted⟩
  rw [stateAfter, Pool.run_append]
  exact present

/-- In an undisturbed run, a delivery of an extension payment extends its rental, unless
there is no room for one more. -/
theorem delivery_extends {early late : List (Nat × Nat)}
    (undisturbed : Pool.Meets exec protocol Undisturbed (early ++ late) (tasks.map .start)
      (pool (.opening ledger now) tasks)) {id : Nat} {row : Rental}
    (found : (stateAfter (.opening ledger now) tasks early).tables.findById id = some row)
    (kept : row.deletedAt = none) {i paymentId : Nat} {payment : Payment} {days : Rat}
    (recorded : ledger.findById paymentId = some payment) (pays : PaysFor payment row days)
    (dealt : Dealt (.opening ledger now) tasks early late i (.paymentCompleted paymentId)) :
    ∃ later, (stateAfter (.opening ledger now) tasks (early ++ late)).tables.findById id =
        some later ∧
      (⟨id, paymentId, days⟩ ∈
          (stateAfter (.opening ledger now) tasks (early ++ late)).extensions id ∨
        later.extendedCount = later.maxExtensions) := by
  let system := System.opening ledger now
  obtain ⟨orderly, -⟩ := Pool.run_invariant orderly_preserves (orderly_start ledger now tasks)
    (pool_follows system tasks) undisturbed
  obtain ⟨informed, follow⟩ := Pool.run_invariant_always informed_preserves
    (informed_start system tasks) (pool_follows system tasks) early
  obtain ⟨notes, hn, task⟩ := notesAfter_given (early ++ late) dealt.given
  have remembers := orderly.informed i notes hn
  have progress := orderly.progress i notes hn
  -- the handler has been through, so it has its payment and has looked up the rental
  obtain ⟨result, through⟩ := dealt.through
  obtain ⟨asked, extends_⟩ := Pool.post_of_done
    (Pool.run_reaches (pool_reaches system tasks) (early ++ late)) hn through paymentId task
  have charged : notes.payment = some payment := by
    rw [← remembers.answered asked paymentId task]
    refine (congrArg (Ledger.findById · paymentId) ?_).trans recorded
    exact Pool.run_state exec System.ledger exec_ledger (pool system tasks) (early ++ late)
  have rowId : row.id = id := Table.key_of_find? found
  have named : (payment.metaString "rentalId").bind readId = some id := rowId ▸ pays.named
  obtain ⟨lookup, outcome⟩ := extends_ payment id days charged pays.type named pays.days
  -- and the lookup came after the rental was there
  have finds : Finds id i ((pool system tasks).run exec (early ++ late)).state
      (notesAfter system tasks (early ++ late)) := by
    have start : Finds id i ((pool system tasks).run exec early).state
        (notesAfter system tasks early) := by
      refine ⟨informed, ⟨row, found⟩, fun own ho looked => ?_⟩
      rw [notesAfter, Pool.recallAll_untouched exec protocol dealt.unbegun, List.getElem?_map,
        dealt.given] at ho
      obtain rfl := Option.some.inj ho
      cases looked
    rw [notesAfter, Pool.recallAll_append, Pool.run_append]
    exact (Pool.run_invariant_always finds_preserves start follow late).1
  obtain ⟨read, reads, wrote⟩ := outcome.resolve_left (finds.found notes hn lookup)
  have listed : read ∈ notes.reads := reads ▸ List.mem_singleton_self read
  obtain ⟨later, foundLater, same⟩ := row_stays early late found
  have readId : read.id = id := remembers.byId id lookup read listed
  obtain ⟨later', foundLater', sameRead⟩ := remembers.rows read listed
  rw [readId] at foundLater'
  obtain rfl := Option.some.inj (foundLater.symm.trans foundLater')
  refine ⟨later, foundLater, ?_⟩
  have reader : read.userId = payment.userId := by
    rw [← sameRead.userId, same.userId, pays.reader]
  have undeleted : read.deletedAt = none := by
    rw [← sameRead.deletedAt, same.deletedAt, kept]
  rcases wrote reader undeleted with written | full
  · left
    have own : payment.id = paymentId := Table.key_of_find? recorded
    refine List.mem_filter.mpr ⟨progress.wrote _ (own ▸ written), ?_⟩
    simp
  · right
    have counts := progress.counts read listed later (readId ▸ foundLater)
    have bounded := (orderly.booked.accounted id later foundLater).bounded
    have most := sameRead.maxExtensions
    omega

end Runs

/-- Extensions come out right in a run of two parts. -/
structure WellExtended (system : System) (tasks : List Task) (early late : List (Nat × Nat)) :
    Prop where
  /-- A rental ends when it was to end plus what its extensions were paid for. It has as
  many as it counts, and no more than it may have. -/
  accounted : ∀ id rental,
    (stateAfter system tasks (early ++ late)).tables.findById id = some rental →
      Accounted (stateAfter system tasks (early ++ late)) rental
  /-- No payment is used twice. -/
  once : ((stateAfter system tasks (early ++ late)).allExtensions.map Extension.paymentId).Nodup
  /-- A rental that has ended is extended no more. -/
  unmoved : ∀ id row, (stateAfter system tasks early).tables.findById id = some row →
    row.Ended → ∃ later,
      (stateAfter system tasks (early ++ late)).tables.findById id = some later ∧
        later.endDate = row.endDate ∧ later.extendedCount = row.extendedCount
  /-- A payment whose delivery was dealt with has been used, unless there was no room. -/
  applied : ∀ id row, (stateAfter system tasks early).tables.findById id = some row →
    row.deletedAt = none → ∀ i paymentId payment days,
      system.ledger.findById paymentId = some payment → PaysFor payment row days →
      Dealt system tasks early late i (.paymentCompleted paymentId) → ∃ later,
        (stateAfter system tasks (early ++ late)).tables.findById id = some later ∧
          (⟨id, paymentId, days⟩ ∈ (stateAfter system tasks (early ++ late)).extensions id ∨
            later.extendedCount = later.maxExtensions)

/-- As long as every extension is written undisturbed, extensions come out right, however
deliveries, returns, refunds and sweeps interleave. -/
theorem extensions_accounted (ledger : Ledger) (now : Int) (tasks : List Task)
    (early late : List (Nat × Nat))
    (undisturbed : Pool.Meets exec protocol Undisturbed (early ++ late) (tasks.map .start)
      (pool (.opening ledger now) tasks)) :
    WellExtended (.opening ledger now) tasks early late := by
  obtain ⟨orderly, -⟩ := Pool.run_invariant orderly_preserves (orderly_start ledger now tasks)
    (pool_follows _ tasks) undisturbed
  refine ⟨orderly.booked.accounted, orderly.booked.once, fun id row found ended => ?_,
    fun id row found kept i paymentId payment days recorded pays dealt => ?_⟩
  · exact ended_unmoved undisturbed found ended
  · exact delivery_extends undisturbed found kept recorded pays dealt

/-- A rental of a week, and two payments for three days more. -/
def extendedWeek : System := .charged [rentalSale 7, extensionSale 0 3, extensionSale 0 3]

/-- One payment is delivered, and the rental is returned meanwhile. -/
theorem extensions_accounted_returned :
    WellExtended extendedWeek [.paymentCompleted 0, .paymentCompleted 1, .returnRental 0 "reader"]
      (List.replicate 4 (0, 0))
      (List.replicate 2 (1, 5) ++ (2, 0) :: List.replicate 3 (1, 5) ++ List.replicate 3 (2, 0)) :=
  extensions_accounted _ _ _ _ _ (by decide)

/-- The end date, the count and the status of the rental. -/
def extendedRental (tasks : List Task) (turns : List (Nat × Nat)) :
    Option (Int × Nat × RentalStatus) :=
  ((stateAfter extendedWeek tasks turns).tables.findById 0).map fun rental =>
    (rental.endDate / MS_PER_DAY, rental.extendedCount, rental.status)

/-- One payment delivered twice moves the end date twice; two payments at once move it only
once; and a rental that has been returned is extended. -/
theorem extensions_disturbed :
    extendedRental [.paymentCompleted 0, .paymentCompleted 1, .paymentCompleted 1]
      (List.replicate 4 (0, 0) ++ List.replicate 5 (1, 0) ++ List.replicate 5 (2, 0)) =
        some (13, 2, .active) ∧
    extendedRental [.paymentCompleted 0, .paymentCompleted 1, .paymentCompleted 2]
      (List.replicate 4 (0, 0) ++ List.replicate 2 (1, 0) ++ List.replicate 5 (2, 0) ++
        List.replicate 3 (1, 0)) = some (10, 1, .active) ∧
    extendedRental [.paymentCompleted 0, .returnRental 0 "reader", .paymentCompleted 1]
      (List.replicate 4 (0, 0) ++ List.replicate 4 (1, 0) ++ List.replicate 5 (2, 0)) =
        some (10, 1, .returned) := by
  decide

/-- No rental has been extended more often than it may be. -/
def System.WithinLimit (system : System) : Prop :=
  ∀ id row, system.tables.findById id = some row → row.extendedCount ≤ row.maxExtensions

/-- An extension counts one more than its handler has read, which left room for one. -/
theorem withinLimit_exec {system : System} {notes : Notes} {call : Call} (elapsed : Nat)
    (informed : Remembers system notes) (allowed : notes.allowed call)
    (within : system.WithinLimit) : (exec elapsed system call).2.WithinLimit := by
  intro id now found
  cases before : system.tables.findById id with
  | none =>
    cases call with
    | create userId bookId durationDays =>
      have inserted := (Table.find?_insert _ _ _ id).symm.trans found
      split at inserted
      · rw [← Option.some.inj inserted]
        exact Nat.zero_le 2
      · exact within id now inserted
    | update own patch extension =>
      have modified := (Table.find?_modify _ own patch.apply patch.apply_id id).symm.trans found
      rw [show Table.find? _ id = none from before] at modified
      split at modified <;> cases modified
    | _ => exact within id now found
  | some row =>
    obtain ⟨later, foundLater, rfl | ⟨patch, extension, rfl, rfl⟩⟩ :=
      exec_findById elapsed call before
    · exact Option.some.inj (foundLater.symm.trans found) ▸ within id later before
    rw [← Option.some.inj (foundLater.symm.trans found)]
    cases extension with
    | none =>
      rcases allowed with ⟨rfl, -⟩ | ⟨⟨returnedAt, rfl⟩, -⟩ <;> exact within id row before
    | some extension =>
      obtain ⟨_, _, read, extends_⟩ := allowed
      have listed : read ∈ notes.reads := extends_.reads ▸ List.mem_singleton_self read
      obtain ⟨other, foundOther, same⟩ := informed.rows read listed
      rw [informed.byId id extends_.lookup read listed, before] at foundOther
      obtain rfl := Option.some.inj foundOther
      rw [extends_.patch]
      exact same.maxExtensions ▸ extends_.room

/-- However payments, refunds, returns and sweeps are interleaved, and though one write may undo
another, no rental is extended more often than it may be. -/
theorem extensions_limited {system : System} (within : system.WithinLimit) (tasks : List Task)
    (turns : List (Nat × Nat)) : (stateAfter system tasks turns).WithinLimit := by
  have informs : Pool.Preserves exec protocol (fun _ _ _ _ => True) Informed := informed_preserves
  have preserves : Pool.Preserves exec protocol (fun _ _ _ _ => True)
      fun system memory => Informed system memory ∧ system.WithinLimit := by
    intro elapsed system memory i notes call remembers kept allowed met
    exact ⟨informs _ _ _ _ _ _ remembers kept.1 allowed met,
      withinLimit_exec elapsed (kept.1 i notes remembers) allowed kept.2⟩
  exact (Pool.run_invariant_always preserves ⟨informed_start system tasks, within⟩
    (pool_follows system tasks) turns).1.2

/-- Two extensions have been paid for, and the third delivery finds no room. -/
theorem extensions_limited_paid :
    (stateAfter extendedWeek
      [.paymentCompleted 0, .paymentCompleted 1, .paymentCompleted 2, .paymentCompleted 1]
      (List.replicate 4 (0, 0) ++ List.replicate 5 (1, 0) ++ List.replicate 5 (2, 0) ++
        List.replicate 5 (3, 0))).WithinLimit :=
  extensions_limited (fun _ _ never => by cases never) _ _

end Rentals.Stepwise
