import Hakawi.Rentals.Stepwise

/-!
# What the handlers write, and on what grounds

A handler reads a payment and rentals and writes later, without a condition. The
notes of a handler say what it has read; the protocol says which writes its
reading allows. Whatever the other handlers do in between, a row that was read
stays the same rental, and an ended rental stays ended.
-/

namespace Rentals.Stepwise

open Common Payments Store Effects

/-- What a handler has learned so far, and the extension it has written. -/
structure Notes where
  task : Task
  asked : Bool
  payment : Option Payment
  lookup : Option Call
  reads : List Rental
  wrote : Option Extension

namespace Notes

def start (task : Task) : Notes := ⟨task, false, none, none, [], none⟩

/-- The handler of a refund that settled, which read a rental that had not ended. -/
structure Revokes (notes : Notes) (read : Rental) (paymentId : Nat) (payment : Payment)
    (bookId : String) : Prop where
  task : notes.task = .refundCompleted paymentId
  charged : notes.payment = some payment
  type : payment.metaString "type" = some "rental"
  book : payment.metaBookId = some bookId
  lookup : notes.lookup = some (.findByUserAndBook payment.userId bookId)
  reads : notes.reads = [read]
  running : read.status ≠ .expired ∧ read.status ≠ .returned

/-- A row may be expired by the sweep that listed it, or for a refund of its rental. -/
def MayExpire (notes : Notes) (id : Nat) : Prop :=
  ∃ read ∈ notes.reads, read.id = id ∧
    (notes.task = .sweep ∧ notes.lookup = some .findOverdue ∨
      ∃ paymentId payment bookId, notes.Revokes read paymentId payment bookId)

def MayReturn (notes : Notes) (id : Nat) : Prop :=
  ∃ userId read, notes.task = .returnRental id userId ∧ notes.lookup = some (.findById id) ∧
    notes.reads = [read] ∧ read.userId = userId ∧ read.status ≠ .returned

/-- The handler of an extension payment, which read a rental with room for one more. -/
structure MayExtend (notes : Notes) (id : Nat) (patch : RentalPatch) (extension : Extension)
    (paymentId : Nat) (payment : Payment) (read : Rental) : Prop where
  task : notes.task = .paymentCompleted paymentId
  charged : notes.payment = some payment
  type : payment.metaString "type" = some "rental_extension"
  rental : (payment.metaString "rentalId").bind readId = some id
  days : metaDays payment "extensionDays" = some extension.days
  lookup : notes.lookup = some (.findById id)
  reads : notes.reads = [read]
  reader : read.userId = payment.userId
  kept : read.deletedAt = none
  room : read.extendedCount < read.maxExtensions
  names : extension.rentalId = id ∧ extension.paymentId = payment.id
  patch : patch = { endDate := some (addDays read.endDate extension.days)
                    extendedCount := some (read.extendedCount + 1) }

def allowed (notes : Notes) : Call → Prop
  | .findPayment id => notes.task = .paymentCompleted id ∨ notes.task = .refundCompleted id
  | .update id patch none =>
    (patch = { status := some .expired } ∧ notes.MayExpire id) ∨
      (∃ returnedAt, patch = { status := some .returned, returnedAt := some (some returnedAt) }) ∧
        notes.MayReturn id
  | .update id patch (some extension) =>
    ∃ paymentId payment read, notes.MayExtend id patch extension paymentId payment read
  | _ => True

def next (notes : Notes) : (call : Call) → call.Answer → Notes
  | .findPayment _, found => { notes with asked := true, payment := found }
  | .findById id, found => { notes with lookup := some (.findById id), reads := found.toList }
  | .findByUserAndBook userId bookId, found =>
    { notes with lookup := some (.findByUserAndBook userId bookId), reads := found.toList }
  | .findOverdue, overdue => { notes with lookup := some .findOverdue, reads := overdue }
  | .update _ _ (some extension), _ => { notes with wrote := some extension }
  | _, _ => notes

def protocol : Protocol Call Call.Answer Notes := ⟨allowed, next⟩

@[simp] theorem protocol_spec (call : Call) (Q : call.Answer → Notes → Prop) (notes : Notes) :
    protocol.spec call Q notes = (notes.allowed call ∧ ∀ r, Q r (notes.next call r)) := rfl

/-- What a handler of an extension payment has done when it is through: it wrote the
extension, unless there was no such rental, or not of this reader, or no room left. -/
def Extends (notes : Notes) : Prop :=
  ∀ payment rentalId days, notes.payment = some payment →
    payment.metaString "type" = some "rental_extension" →
    (payment.metaString "rentalId").bind readId = some rentalId →
    metaDays payment "extensionDays" = some days →
    notes.lookup = some (.findById rentalId) ∧ (notes.reads = [] ∨ ∃ read, notes.reads = [read] ∧
      (read.userId = payment.userId → read.deletedAt = none →
        notes.wrote = some ⟨rentalId, payment.id, days⟩ ∨
          read.maxExtensions ≤ read.extendedCount))

/-- A handler that is through has dealt with its payment. -/
def Handled (notes : Notes) : Prop :=
  ∀ paymentId, notes.task = .paymentCompleted paymentId → notes.asked = true ∧ notes.Extends

/-- A payment that is for no extension asks for none. -/
theorem Handled.of_type {notes : Notes} {payment : Payment} (asked : notes.asked = true)
    (charged : notes.payment = some payment)
    (other : payment.metaString "type" ≠ some "rental_extension") : notes.Handled := by
  refine fun _ _ => ⟨asked, fun payment' _ _ charged' type => ?_⟩
  obtain rfl := Option.some.inj (charged.symm.trans charged')
  exact absurd type other

theorem Handled.of_task {notes : Notes}
    (other : ∀ paymentId, notes.task ≠ .paymentCompleted paymentId) : notes.Handled :=
  fun paymentId task => absurd task (other paymentId)

end Notes

open Notes

theorem applyExtension_follows {notes : Notes} {paymentId : Nat} {payment : Payment}
    (task : notes.task = .paymentCompleted paymentId) (asked : notes.asked = true)
    (charged : notes.payment = some payment)
    (type : payment.metaString "type" = some "rental_extension") :
    wpE protocol.spec (applyExtension payment) (fun _ notes => notes.Handled) notes := by
  unfold applyExtension
  cases hr : (payment.metaString "rentalId").bind readId with
  | none =>
    refine fun _ _ => ⟨asked, fun payment' _ _ charged' _ rental => ?_⟩
    obtain rfl := Option.some.inj (charged.symm.trans charged')
    rw [hr] at rental
    cases rental
  | some rentalId =>
    cases hd : metaDays payment "extensionDays" with
    | none =>
      refine fun _ _ => ⟨asked, fun payment' _ _ charged' _ _ days => ?_⟩
      obtain rfl := Option.some.inj (charged.symm.trans charged')
      rw [hd] at days
      cases days
    | some extensionDays =>
      simp only [wpE_bind, call, wpE_mk_call, Program.wp_done, protocol_spec]
      refine ⟨trivial, fun found => ?_⟩
      -- whatever the lookup answered, it was for the rental the payment names
      have through : ∀ after : Notes, after.asked = notes.asked →
          after.payment = notes.payment → after.lookup = some (.findById rentalId) →
          (after.reads = [] ∨ ∃ read, after.reads = [read] ∧ (read.userId = payment.userId →
            read.deletedAt = none → after.wrote = some ⟨rentalId, payment.id, extensionDays⟩ ∨
              read.maxExtensions ≤ read.extendedCount)) → after.Handled := by
        intro after sameAsked samePayment lookup outcome
        refine fun _ _ => ⟨sameAsked.trans asked, fun payment' rentalId' days' charged' _ hr' hd' => ?_⟩
        rw [samePayment, charged] at charged'
        obtain rfl := Option.some.inj charged'
        obtain rfl := Option.some.inj (hr.symm.trans hr')
        obtain rfl := Option.some.inj (hd.symm.trans hd')
        exact ⟨lookup, outcome⟩
      cases found with
      | none => exact through _ rfl rfl rfl (Or.inl rfl)
      | some rental =>
        simp only [wpE_ite, wpE_pure, wpE_bind, wpE_mk_call, Program.wp_done, protocol_spec]
        split
        · rename_i refused
          refine through _ rfl rfl rfl (Or.inr ⟨rental, rfl, fun reader kept => ?_⟩)
          rcases refused with deleted | other | full
          · rw [kept] at deleted
            cases deleted
          · exact absurd reader other
          · exact Or.inr full
        · rename_i accepted
          simp only [not_or, Bool.not_eq_true, Option.isSome_eq_false_iff, Option.isNone_iff_eq_none,
            not_not, not_le] at accepted
          obtain ⟨kept, reader, room⟩ := accepted
          refine ⟨trivial, fun _ => ⟨⟨paymentId, payment, rental, ?_⟩, fun _ => ⟨trivial, fun _ => ?_⟩⟩⟩
          · exact ⟨task, charged, type, hr, hd, rfl, rfl, reader, kept, room, ⟨rfl, rfl⟩, rfl⟩
          · exact through _ rfl rfl rfl (Or.inr ⟨rental, rfl, fun _ _ => Or.inl rfl⟩)

theorem grantRental_follows {notes : Notes} {payment : Payment} (asked : notes.asked = true)
    (charged : notes.payment = some payment)
    (other : payment.metaString "type" ≠ some "rental_extension") :
    wpE protocol.spec (grantRental payment) (fun _ notes => notes.Handled) notes := by
  unfold grantRental
  cases payment.metaBookId with
  | none => exact .of_type asked charged other
  | some bookId =>
    cases metaDays payment "durationDays" with
    | none => exact .of_type asked charged other
    | some durationDays =>
      simp only [wpE_bind, call, wpE_mk_call, Program.wp_done, protocol_spec, wpE_ite, wpE_pure]
      refine ⟨trivial, fun found => ?_⟩
      split
      · exact .of_type asked charged other
      · exact ⟨trivial, fun _ => ⟨trivial, fun _ => .of_type asked charged other⟩⟩

theorem revokeRental_follows {notes : Notes} {paymentId : Nat} {payment : Payment}
    (task : notes.task = .refundCompleted paymentId) (charged : notes.payment = some payment)
    (type : payment.metaString "type" = some "rental") :
    wpE protocol.spec (revokeRental payment) (fun _ notes => notes.Handled) notes := by
  have other : ∀ notes' : Notes, notes'.task = notes.task → notes'.Handled := by
    intro notes' same
    refine .of_task fun id completed => ?_
    rw [same, task] at completed
    cases completed
  unfold revokeRental
  cases book : payment.metaBookId with
  | none => exact other _ rfl
  | some bookId =>
    simp only [wpE_bind, call, wpE_mk_call, Program.wp_done, protocol_spec]
    refine ⟨trivial, fun found => ?_⟩
    cases found with
    | none => exact other _ rfl
    | some rental =>
      simp only [wpE_ite, wpE_pure, wpE_bind, wpE_mk_call, Program.wp_done, protocol_spec]
      split
      · exact other _ rfl
      · rename_i running
        simp only [not_or] at running
        refine ⟨Or.inl ⟨rfl, rental, List.mem_singleton_self _, rfl, Or.inr ?_⟩, fun _ =>
          ⟨trivial, fun _ => other _ rfl⟩⟩
        exact ⟨paymentId, payment, bookId, task, charged, type, book, rfl, rfl, running.2⟩

theorem returnRental_follows {notes : Notes} {id : Nat} {userId : String}
    (task : notes.task = .returnRental id userId) :
    wpE protocol.spec (returnRental id userId) (fun _ notes => notes.Handled) notes := by
  have other : ∀ notes' : Notes, notes'.task = notes.task → notes'.Handled := by
    intro notes' same
    refine .of_task fun id completed => ?_
    rw [same, task] at completed
    cases completed
  simp only [returnRental, wpE_bind, call, wpE_mk_call, Program.wp_done, protocol_spec, wpE_liftM]
  refine ⟨trivial, fun found => ?_⟩
  cases own : ownRental found userId with
  | error e => exact other _ rfl
  | ok rental =>
    obtain ⟨rfl, reader⟩ := ownRental_ok own
    simp only [wpE_ite, wpE_throw, wpE_bind, wpE_mk_call, Program.wp_done, protocol_spec]
    split
    · exact other _ rfl
    · rename_i running
      refine ⟨trivial, fun returnedAt => ⟨Or.inr ⟨⟨returnedAt, rfl⟩, ?_⟩, fun _ =>
        ⟨trivial, fun _ => other _ rfl⟩⟩⟩
      exact ⟨userId, rental, task, rfl, rfl, reader, running⟩

theorem expireAll_follows {notes : Notes} (task : notes.task = .sweep)
    (lookup : notes.lookup = some .findOverdue) {overdue : List Rental}
    (listed : ∀ rental ∈ overdue, rental ∈ notes.reads) :
    wpE protocol.spec (expireAll overdue) (fun _ notes => notes.Handled) notes := by
  induction overdue with
  | nil =>
    refine .of_task fun id completed => ?_
    rw [task] at completed
    cases completed
  | cons rental rest ih =>
    simp only [expireAll, wpE_bind, call, wpE_mk_call, Program.wp_done, protocol_spec]
    refine ⟨Or.inl ⟨rfl, rental, listed rental List.mem_cons_self, rfl, Or.inl ⟨task, lookup⟩⟩,
      fun _ => ⟨trivial, fun _ => ih fun r hr => listed r (List.mem_cons_of_mem _ hr)⟩⟩

/-- Every handler writes only what its reading allows, and handles its event. -/
theorem Task.follows (task : Task) :
    protocol.Reaches (fun _ notes => notes.Handled) (.start task) task.handler.run := by
  cases task with
  | paymentCompleted paymentId =>
    change wpE _ (handlePaymentCompleted paymentId) _ _
    simp only [handlePaymentCompleted, wpE_bind, call, wpE_mk_call, Program.wp_done, protocol_spec]
    refine ⟨Or.inl rfl, fun found => ?_⟩
    cases found with
    | none =>
      refine fun _ _ => ⟨rfl, fun payment _ _ charged => ?_⟩
      cases charged
    | some payment =>
      simp only [wpE_ite]
      split
      · rename_i type
        exact applyExtension_follows rfl rfl rfl type
      · rename_i other
        split
        · exact grantRental_follows rfl rfl other
        · exact .of_type rfl rfl other
  | refundCompleted paymentId =>
    change wpE _ (handleRefundCompleted paymentId) _ _
    simp only [handleRefundCompleted, wpE_bind, call, wpE_mk_call, Program.wp_done, protocol_spec]
    refine ⟨Or.inr rfl, fun found => ?_⟩
    cases found with
    | none => exact .of_task (by rintro _ ⟨⟩)
    | some payment =>
      simp only [wpE_ite]
      split
      · rename_i type
        exact revokeRental_follows rfl rfl type
      · exact .of_task (by rintro _ ⟨⟩)
  | returnRental id userId => exact returnRental_follows rfl
  | sweep =>
    change wpE _ checkAndExpireOverdue _ _
    simp only [checkAndExpireOverdue, wpE_bind, call, wpE_mk_call, Program.wp_done, protocol_spec]
    exact ⟨trivial, fun overdue => expireAll_follows rfl rfl fun _ h => h⟩

theorem pool_reaches (system : System) (tasks : List Task) :
    List.Forall₂ (protocol.Reaches fun _ notes => notes.Handled) (tasks.map .start)
      (pool system tasks).threads := by
  induction tasks with
  | nil => exact .nil
  | cons task rest ih => exact .cons task.follows ih

theorem pool_follows (system : System) (tasks : List Task) :
    Pool.Follow protocol (tasks.map .start) (pool system tasks) :=
  (pool_reaches system tasks).imp fun _ _ reaches => reaches.follows

section Rows
variable {system : System} {notes : Notes} {call : Call} {elapsed : Nat}

theorem exec_ledger (elapsed : Nat) (system : System) (call : Call) :
    (exec elapsed system call).2.ledger = system.ledger := by
  cases call <;> rfl

theorem exec_now (elapsed : Nat) (system : System) (call : Call) :
    (exec elapsed system call).2.now = system.now + elapsed := by
  cases call <;> rfl

/-- A row is left alone, or it is the one a call updates. -/
theorem exec_findById (elapsed : Nat) (call : Call) {id : Nat} {row : Rental}
    (found : system.tables.findById id = some row) :
    ∃ now, (exec elapsed system call).2.tables.findById id = some now ∧
      (now = row ∨ ∃ patch extension, call = .update id patch extension ∧
        now = patch.apply row) := by
  cases call with
  | create userId bookId durationDays =>
    refine ⟨row, ?_, Or.inl rfl⟩
    have old : id ≠ system.tables.rentals.next := Nat.ne_of_lt (Table.lt_next_of_find? found)
    exact (Table.find?_insert _ _ _ _).trans ((if_neg old).trans found)
  | update own patch extension =>
    by_cases same : id = own
    · subst same
      refine ⟨patch.apply row, ?_, Or.inr ⟨patch, extension, rfl, rfl⟩⟩
      refine (Table.find?_modify_self patch.apply_id).trans ?_
      exact congrArg (Option.map patch.apply) found
    · exact ⟨row, (Table.find?_modify_ne patch.apply_id same).trans found, Or.inl rfl⟩
  | _ => exact ⟨row, found, Or.inl rfl⟩

/-- A later state of the same rental. -/
structure SameRental (read row : Rental) : Prop where
  id : row.id = read.id
  userId : row.userId = read.userId
  bookId : row.bookId = read.bookId
  maxExtensions : row.maxExtensions = read.maxExtensions
  deletedAt : row.deletedAt = read.deletedAt
  ended : read.Ended → row.Ended

theorem SameRental.refl (row : Rental) : SameRental row row := ⟨rfl, rfl, rfl, rfl, rfl, fun h => h⟩

theorem SameRental.trans {read row now : Rental} (first : SameRental read row)
    (second : SameRental row now) : SameRental read now :=
  ⟨second.id.trans first.id, second.userId.trans first.userId, second.bookId.trans first.bookId,
    second.maxExtensions.trans first.maxExtensions, second.deletedAt.trans first.deletedAt,
    fun h => second.ended (first.ended h)⟩

/-- Every allowed update leaves the rental the same, and ended if it had ended. -/
theorem apply_same {id : Nat} {patch : RentalPatch} {extension : Option Extension}
    (allowed : notes.allowed (.update id patch extension)) (row : Rental) :
    SameRental row (patch.apply row) := by
  refine ⟨rfl, rfl, rfl, rfl, rfl, fun ended => ?_⟩
  cases extension with
  | none =>
    rcases allowed with ⟨rfl, -⟩ | ⟨⟨returnedAt, rfl⟩, -⟩
    · exact Or.inl rfl
    · exact Or.inr rfl
  | some extension =>
    obtain ⟨_, _, _, extends_⟩ := allowed
    rw [extends_.patch]
    exact ended

theorem exec_same (elapsed : Nat) (allowed : notes.allowed call) {id : Nat} {row : Rental}
    (found : system.tables.findById id = some row) :
    ∃ now, (exec elapsed system call).2.tables.findById id = some now ∧ SameRental row now := by
  obtain ⟨now, foundNow, kept | ⟨patch, extension, rfl, rfl⟩⟩ := exec_findById elapsed call found
  · exact ⟨now, foundNow, kept ▸ .refl row⟩
  · exact ⟨_, foundNow, apply_same allowed row⟩

/-- What a handler has noted is so, or has come to be so since. -/
structure Remembers (system : System) (notes : Notes) : Prop where
  charged : ∀ payment, notes.payment = some payment →
    system.ledger.findById payment.id = some payment ∧
      (notes.task = .paymentCompleted payment.id ∨ notes.task = .refundCompleted payment.id)
  answered : notes.asked = true → ∀ id, notes.task = .paymentCompleted id →
    system.ledger.findById id = notes.payment
  rows : ∀ read ∈ notes.reads, ∃ row, system.tables.findById read.id = some row ∧
    SameRental read row
  byId : ∀ id, notes.lookup = some (.findById id) → ∀ read ∈ notes.reads, read.id = id
  byPair : ∀ userId bookId, notes.lookup = some (.findByUserAndBook userId bookId) →
    ∀ read ∈ notes.reads, read.userId = userId ∧ read.bookId = bookId
  overdue : notes.lookup = some .findOverdue →
    ∀ read ∈ notes.reads, read.status = .active ∧ read.endDate < system.now

theorem Remembers.start (system : System) (task : Task) : Remembers system (.start task) :=
  ⟨by rintro _ ⟨⟩, by rintro ⟨⟩, by rintro _ ⟨⟩, by rintro _ ⟨⟩, by rintro _ _ ⟨⟩, by rintro ⟨⟩⟩

/-- The calls of others change nothing about what a handler has noted. -/
theorem Remembers.exec {acting : Notes} (elapsed : Nat) (h : Remembers system notes)
    (allowed : acting.allowed call) : Remembers (exec elapsed system call).2 notes := by
  refine ⟨?_, ?_, fun read hr => ?_, h.byId, h.byPair, fun lookup read hr => ?_⟩
  · rw [exec_ledger]
    exact h.charged
  · rw [exec_ledger]
    exact h.answered
  · obtain ⟨row, found, same⟩ := h.rows read hr
    obtain ⟨now, foundNow, later⟩ := exec_same elapsed allowed found
    exact ⟨now, foundNow, same.trans later⟩
  · obtain ⟨active, past⟩ := h.overdue lookup read hr
    refine ⟨active, ?_⟩
    rw [exec_now]
    omega

theorem mem_of_toList {found : Option Rental} {read : Rental} (h : read ∈ found.toList) :
    found = some read := by
  cases found with
  | none => cases h
  | some row => rw [List.mem_singleton.mp h]

/-- What the handler that makes the call notes of its answer is so. -/
theorem Remembers.next (elapsed : Nat) (h : Remembers system notes)
    (allowed : notes.allowed call) :
    Remembers (Stepwise.exec elapsed system call).2
      (notes.next call (Stepwise.exec elapsed system call).1) := by
  have kept := h.exec elapsed allowed
  cases call with
  | findPayment id =>
    refine ⟨fun payment found => ?_, fun _ own task => ?_, kept.rows, kept.byId, kept.byPair,
      kept.overdue⟩
    · have named : payment.id = id := Table.key_of_find? found
      refine ⟨named ▸ found, ?_⟩
      rw [named]
      exact allowed
    · rcases allowed with completed | refunded
      · obtain rfl := Task.paymentCompleted.inj (completed.symm.trans task)
        rfl
      · cases refunded.symm.trans task
  | findById id =>
    have exact_ : ∀ read ∈ (system.tables.findById id).toList, system.tables.findById id = some read :=
      fun read hr => mem_of_toList hr
    refine ⟨kept.charged, kept.answered, fun read hr => ⟨read, ?_, .refl read⟩, fun own lookup read hr => ?_,
      (by rintro _ _ ⟨⟩), by rintro ⟨⟩⟩
    · rw [Table.key_of_find? (exact_ read hr)]
      exact exact_ read hr
    · rw [Table.key_of_find? (exact_ read hr)]
      simpa [Notes.next] using lookup
  | findByUserAndBook userId bookId =>
    have newest : ∀ read ∈ (system.tables.findByUserAndBook userId bookId).toList,
        read ∈ system.tables.ofPair userId bookId := fun read hr => newest_mem (mem_of_toList hr)
    refine ⟨kept.charged, kept.answered, fun read hr => ⟨read, ?_, .refl read⟩, by rintro _ ⟨⟩,
      fun _ _ lookup read hr => ?_,
      (by rintro ⟨⟩)⟩
    · exact Table.find?_eq_some_iff.mpr ⟨List.mem_of_mem_filter (newest read hr), rfl⟩
    · have named := List.of_mem_filter (newest read hr)
      simp only [Bool.decide_and, Bool.and_eq_true, decide_eq_true_eq] at named
      simp only [Notes.next, Option.some.injEq, Call.findByUserAndBook.injEq] at lookup
      exact ⟨named.1.trans lookup.1, named.2.1.trans lookup.2⟩
  | findOverdue =>
    refine ⟨kept.charged, kept.answered, fun read hr => ⟨read, ?_, .refl read⟩, by rintro _ ⟨⟩,
      by rintro _ _ ⟨⟩, fun _ read hr => ?_⟩
    · exact Table.find?_eq_some_iff.mpr ⟨List.mem_of_mem_filter hr, rfl⟩
    · have overdue := List.of_mem_filter hr
      simp only [Bool.decide_and, Bool.and_eq_true, decide_eq_true_eq] at overdue
      exact ⟨overdue.1, overdue.2.1⟩
  | update id patch extension =>
    cases extension with
    | none => exact kept
    | some extension => exact ⟨kept.charged, kept.answered, kept.rows, kept.byId, kept.byPair, kept.overdue⟩
  | _ => exact kept

/-- Every handler's notes are so. -/
def Informed (system : System) (all : List Notes) : Prop :=
  ∀ (i : Nat) (notes : Notes), all[i]? = some notes → Remembers system notes

theorem informed_start (system : System) (tasks : List Task) :
    Informed system (tasks.map .start) := by
  intro i notes hn
  obtain ⟨task, -, rfl⟩ := List.mem_map.mp (List.mem_of_getElem? hn)
  exact .start system task

theorem informed_preserves {ok : Nat → System → Notes → Call → Prop} :
    Pool.Preserves Stepwise.exec protocol ok Informed := by
  intro elapsed system all i notes call hn informed allowed _ j other hj
  rw [Pool.getElem?_set_of_some hn] at hj
  split at hj
  · rw [← Option.some.inj hj]
    exact (informed i notes hn).next elapsed allowed
  · exact (informed j other hj).exec elapsed allowed

end Rows

end Rentals.Stepwise
