import Hakawi.Library.Service

/-!
# One entry for a reader and a book

No index keeps two entries of one pair apart, and a delete does not say whether there was anything
to delete. While every entry that is created is the first of its pair, and every delete finds its
entry, a pair has one entry, and every entry is announced once when it comes and once when it goes.
-/

namespace Library
open Common Store Effects

/-- What a thread has done and not announced yet. -/
inductive Phase where
  | looking
  | created (id : Nat) (userId bookId : String)
  | deleted (id : Nat)
  | broken
  deriving DecidableEq

namespace Phase

def after (g : Phase) : (op : Call) → op.Answer → Phase
  | .create userId bookId _ _, .ok item => .created item.id userId bookId
  | .delete id, .ok _ => .deleted id
  | .emit _, .ok _ => .looking
  | .create _ _ _ _, .error _ | .delete _, .error _ | .forget _, .error _
  | .emit _, .error _ => .broken
  | _, _ => g

end Phase

/-- Look, write, and announce what was written. -/
def keeping : Protocol Call Call.Answer Phase where
  allowed g op := match op with
    | .forget id => g = .deleted id
    | .emit (.itemAdded id userId bookId) => g = .created id userId bookId
    | .emit (.itemRemoved id _) => g = .deleted id
    | _ => g = .looking
  next := Phase.after

/-- Nothing is left to announce, unless something went wrong. -/
def Rests (g : Phase) : Prop := g = .looking ∨ g = .broken

section Following
variable {α β : Type}

/-- Whatever happens, the program has announced what it did. -/
def Announces (p : Method α) : Prop := wpE keeping.spec p (fun _ => Rests) .looking

theorem keeping_monotone : keeping.spec.Monotone := keeping.spec_monotone

theorem announces_done (p : Except Failure α) : Announces (ExceptT.mk (.done p)) := Or.inl rfl

theorem wpE_keeping {op : Call} {next : op.Value → Method β} {g : Phase}
    {Q : Except Failure β → Phase → Prop} (allowed : keeping.allowed g op)
    (thrown : ∀ e, Q (.error e) (g.after op (.error e)))
    (goes : ∀ value, wpE keeping.spec (next value) Q (g.after op (.ok value))) :
    wpE keeping.spec (call op >>= next) Q g := by
  rw [wpE_bind]
  refine ⟨allowed, fun answer => ?_⟩
  cases answer with
  | error e => exact thrown e
  | ok value => exact goes value

/-- A lookup, and what follows from it. -/
def Looks : Call → Prop
  | .findPayment _ | .findBook _ | .findByUserAndBook _ _ | .findByRentalId _ | .findById _ => True
  | _ => False

theorem announces_look {op : Call} {next : op.Value → Method β} (looks : Looks op)
    (rest : ∀ value, Announces (next value)) : Announces (call op >>= next) := by
  cases op with
  | findPayment | findBook | findByUserAndBook | findByRentalId | findById =>
    exact wpE_keeping rfl (fun e => Or.inl rfl) rest
  | create | delete | forget | emit => exact looks.elim

theorem announces_create {userId bookId : String} {rentalId : Option Nat} {status : LibraryStatus}
    {next : LibraryItem → Method β}
    (rest : ∀ item, ∃ a, next item = do
      call (.emit (.itemAdded item.id userId bookId))
      return a) : Announces (call (.create userId bookId rentalId status) >>= next) := by
  refine wpE_keeping rfl (fun e => Or.inr rfl) fun item => ?_
  obtain ⟨a, same⟩ := rest item
  rw [same]
  exact wpE_keeping rfl (fun e => Or.inr rfl) fun u => Or.inl rfl

/-- Nothing is done about what is caught. -/
theorem announces_tryCatch {p : Method α} {handler : Failure → Method α} (first : Announces p)
    (rest : ∀ e, ∃ result, handler e = ExceptT.mk (.done result)) :
    Announces (tryCatch p handler) := by
  rw [Announces, wpE_tryCatch]
  refine wpE_mono keeping_monotone (fun result g rests => ?_) first
  cases result with
  | ok a => exact rests
  | error e =>
    obtain ⟨result, same⟩ := rest e
    change wpE keeping.spec (handler e) _ _
    rw [same]
    exact rests

theorem announces_map {p : Method α} (first : Announces p) (f : α → β) :
    Announces (do
      let a ← p
      return f a) := by
  rw [Announces, wpE_bind]
  refine wpE_mono keeping_monotone (fun result g rests => ?_) first
  cases result <;> exact rests

theorem addToLibrary_announces (userId bookId : String) (rentalId : Option Nat) :
    Announces (LibraryService.addToLibrary userId bookId rentalId) := by
  refine announces_look trivial fun found => ?_
  cases found with
  | some item => exact announces_done _
  | none => exact announces_create fun item => ⟨item, rfl⟩

theorem claimFreeBook_announces (userId bookId : String) :
    Announces (LibraryService.claimFreeBook userId bookId) := by
  refine announces_look trivial fun found => ?_
  cases found with
  | none => exact announces_done _
  | some book =>
    dsimp only
    split
    · exact announces_done _
    split
    · exact announces_done _
    · exact addToLibrary_announces userId bookId none

theorem removeFromLibrary_announces (id : Nat) (userId : String) :
    Announces (LibraryService.removeFromLibrary id userId) := by
  refine announces_look trivial fun found => ?_
  cases found with
  | none => exact announces_done _
  | some item =>
    dsimp only
    split
    · exact announces_done _
    · refine wpE_keeping rfl (fun e => Or.inr rfl) fun u => ?_
      refine wpE_keeping rfl (fun e => Or.inr rfl) fun u => ?_
      refine ⟨rfl, fun answer => ?_⟩
      cases answer with
      | error e => exact Or.inr rfl
      | ok u => exact Or.inl rfl

theorem removeBookForRefund_announces (userId bookId : String) :
    Announces (LibraryService.removeBookForRefund userId bookId) := by
  refine announces_look trivial fun found => ?_
  cases found with
  | none => exact announces_done _
  | some item =>
    refine announces_tryCatch
      (announces_map (removeFromLibrary_announces item.id userId) fun _ => true) fun e => ?_
    split
    · exact ⟨_, rfl⟩
    · exact ⟨_, rfl⟩

theorem grant_announces {userId bookId : String} {rentalId : Option Nat}
    {status : LibraryStatus} : Announces (do
      let item ← call (.create userId bookId rentalId status)
      call (.emit (.itemAdded item.id userId bookId))) := by
  refine wpE_keeping rfl (fun e => Or.inr rfl) fun item => ?_
  refine ⟨rfl, fun answer => ?_⟩
  cases answer with
  | error e => exact Or.inr rfl
  | ok u => exact Or.inl rfl

theorem handlePaymentCompleted_announces (paymentId : Nat) :
    Announces (LibraryEventHandler.handlePaymentCompleted paymentId) := by
  refine announces_look trivial fun found => ?_
  cases found with
  | none => exact announces_done _
  | some payment =>
    dsimp only
    split
    · exact announces_done _
    split
    · exact announces_done _
    · refine announces_look trivial fun existing => ?_
      cases existing with
      | some item => exact announces_done _
      | none => exact grant_announces

theorem handleRefundCompleted_announces (paymentId : Nat) :
    Announces (LibraryEventHandler.handleRefundCompleted paymentId) := by
  refine announces_look trivial fun found => ?_
  cases found with
  | none => exact announces_done _
  | some payment =>
    dsimp only
    split
    · exact announces_done _
    split
    · exact announces_done _
    · rename_i bookId _
      exact announces_map (removeBookForRefund_announces payment.userId bookId) fun _ => ()

theorem handleRentalCreated_announces (rentalId : Nat) (userId bookId : String) :
    Announces (LibraryEventHandler.handleRentalCreated rentalId userId bookId) := by
  refine announces_look trivial fun forRental => ?_
  cases forRental with
  | some item => exact announces_done _
  | none =>
    refine announces_look trivial fun forBook => ?_
    cases forBook with
    | some item => exact announces_done _
    | none =>
      refine announces_tryCatch (announces_map
        (addToLibrary_announces userId bookId (some rentalId)) fun _ => ()) fun e => ?_
      split
      · exact ⟨_, rfl⟩
      · exact ⟨_, rfl⟩

theorem withdrawRentalAccess_announces (rentalId : Nat) :
    Announces (LibraryEventHandler.withdrawRentalAccess rentalId) := by
  refine announces_look trivial fun found => ?_
  cases found with
  | none => exact announces_done _
  | some granted =>
    exact announces_map (removeBookForRefund_announces granted.userId granted.bookId) fun _ => ()

theorem request_announces (request : Request) : Announces request.run := by
  cases request with
  | paymentCompleted paymentId => exact handlePaymentCompleted_announces paymentId
  | refundCompleted paymentId => exact handleRefundCompleted_announces paymentId
  | rentalCreated rentalId userId bookId =>
    exact handleRentalCreated_announces rentalId userId bookId
  | rentalReturned rentalId => exact withdrawRentalAccess_announces rentalId
  | rentalExpired rentalId => exact withdrawRentalAccess_announces rentalId
  | claimFreeBook userId bookId =>
    exact announces_map (claimFreeBook_announces userId bookId) fun _ => ()

end Following

/-- Which entry an event announces. -/
def added (id : Nat) : LibraryEvent → Bool
  | .itemAdded item _ _ => item = id
  | .itemRemoved _ _ => false

def removed (id : Nat) : LibraryEvent → Bool
  | .itemAdded _ _ _ => false
  | .itemRemoved item _ => item = id

/-- Which entry a thread has still to announce. -/
def owesAdded (id : Nat) : Phase → Bool
  | .created item _ _ => item = id
  | _ => false

def owesRemoved (id : Nat) : Phase → Bool
  | .deleted item => item = id
  | _ => false

section Invariant
variable (start world : World)

def Present (id : Nat) : Prop := ∃ item ∈ world.shelf.items.rows, item.id = id

instance (id : Nat) : Decidable (Present world id) := inferInstanceAs (Decidable (∃ item ∈ _, _))

/-- An entry was created since the start. -/
def Created (id : Nat) : Prop := start.shelf.items.next ≤ id ∧ id < world.shelf.items.next

instance (id : Nat) : Decidable (Created start world id) := inferInstanceAs (Decidable (_ ∧ _))

/-- An entry was deleted since the start. -/
def Deleted (id : Nat) : Prop := (Present start id ∨ Created start world id) ∧ ¬ Present world id

instance (id : Nat) : Decidable (Deleted start world id) := inferInstanceAs (Decidable (_ ∧ ¬ _))

/-- One entry for a pair, and every entry is announced or about to be. -/
structure Consistent (memory : List Phase) : Prop where
  pairs : ∀ a ∈ world.shelf.items.rows, ∀ b ∈ world.shelf.items.rows, a.pair = b.pair → a = b
  grown : start.shelf.items.next ≤ world.shelf.items.next
  known : ∀ id, Present world id → Present start id ∨ Created start world id
  added : ∀ id, world.shelf.events.countP (added id) + memory.countP (owesAdded id) =
    start.shelf.events.countP (added id) + if Created start world id then 1 else 0
  removed : ∀ id, world.shelf.events.countP (removed id) + memory.countP (owesRemoved id) =
    start.shelf.events.countP (removed id) + if Deleted start world id then 1 else 0
  unbroken : .broken ∉ memory

end Invariant

/-- The call is carried out; an entry that is created is the first of its pair, and one that is
deleted is there. -/
def Unraced (choice : Choice) (world : World) (op : Call) : Prop :=
  choice.outcome = .performed ∧ match op with
    | .create userId bookId _ _ =>
      ∀ item ∈ world.shelf.items.rows, item.pair ≠ (userId, bookId)
    | .delete id => Present world id
    | _ => True

instance (choice : Choice) (world : World) (op : Call) : Decidable (Unraced choice world op) := by
  cases op <;> unfold Unraced <;> infer_instance

section Steps
variable {start world : World} {memory : List Phase} {i : Nat} {g : Phase} {choice : Choice}

theorem exec_performed (performed : choice.outcome = .performed) (op : Call) :
    exec choice world op = world.perform choice op := by
  rw [exec, performed]

theorem present_lt {id : Nat} (present : Present world id) : id < world.shelf.items.next := by
  obtain ⟨item, member, rfl⟩ := present
  exact world.shelf.items.below item member

theorem not_broken_of_set {g' : Phase} (unbroken : Phase.broken ∉ memory) (other : g' ≠ .broken) :
    Phase.broken ∉ memory.set i g' := by
  intro member
  rcases List.mem_or_eq_of_mem_set member with old | new
  · exact unbroken old
  · exact other new.symm

theorem consistent_create {userId bookId : String} {rentalId : Option Nat}
    {status : LibraryStatus} (remembers : memory[i]? = some .looking)
    (consistent : Consistent start world memory)
    (free : ∀ item ∈ world.shelf.items.rows, item.pair ≠ (userId, bookId)) :
    let created := world.shelf.create userId bookId rentalId status
    Consistent start { world with shelf := created.2 }
      (memory.set i (.created created.1.id userId bookId)) := by
  intro created
  have next : created.2.items.next = world.shelf.items.next + 1 := rfl
  have rows : created.2.items.rows = world.shelf.items.rows ++ [created.1] := rfl
  have named : created.1.id = world.shelf.items.next := rfl
  have grown := consistent.grown
  have present (id : Nat) : Present { world with shelf := created.2 } id ↔
      Present world id ∨ id = world.shelf.items.next := by
    simp only [Present, rows, List.mem_append, List.mem_singleton, or_and_right, exists_or,
      exists_eq_left, named, eq_comm]
  have made (id : Nat) : Created start { world with shelf := created.2 } id ↔
      Created start world id ∨ id = world.shelf.items.next := by
    simp only [Created, next]
    omega
  refine ⟨fun a ha b hb same => ?_, by rw [next]; omega, fun id here => ?_, fun id => ?_,
    fun id => ?_, not_broken_of_set consistent.unbroken (by simp)⟩
  · rw [rows] at ha hb
    rcases List.mem_append.mp ha with oldA | newA <;> rcases List.mem_append.mp hb with oldB | newB
    · exact consistent.pairs a oldA b oldB same
    · rw [List.mem_singleton.mp newB] at same
      exact absurd same (free a oldA)
    · rw [List.mem_singleton.mp newA] at same
      exact absurd same.symm (free b oldB)
    · rw [List.mem_singleton.mp newA, List.mem_singleton.mp newB]
  · rcases (present id).mp here with old | new
    · exact (consistent.known id old).imp_right fun old => (made id).mpr (Or.inl old)
    · exact Or.inr ((made id).mpr (Or.inr new))
  · have counted := Pool.countP_set_of_some (owesAdded id) remembers
      (.created created.1.id userId bookId)
    have before := consistent.added id
    have events : created.2.events = world.shelf.events := rfl
    rw [events]
    simp only [owesAdded, decide_eq_true_eq, Bool.false_eq_true, if_false] at counted
    have fresh (new : id = world.shelf.items.next) : ¬ Created start world id := fun made => by
      have lt := made.2
      omega
    simp only [made id]
    by_cases new : id = world.shelf.items.next
    · rw [if_neg (fresh new)] at before
      rw [if_pos (named.trans new.symm)] at counted
      rw [if_pos (Or.inr new)]
      omega
    · rw [if_neg (fun same => new (same.symm.trans named))] at counted
      simp only [new, or_false]
      omega
  · have counted := Pool.countP_set_of_some (owesRemoved id) remembers
      (.created created.1.id userId bookId)
    have before := consistent.removed id
    have events : created.2.events = world.shelf.events := rfl
    rw [events]
    simp only [owesRemoved, Bool.false_eq_true, if_false] at counted
    have same : Deleted start { world with shelf := created.2 } id ↔ Deleted start world id := by
      have early (here : Present start id) : id < start.shelf.items.next := present_lt here
      simp only [Deleted, made id, present id]
      by_cases new : id = world.shelf.items.next
      · have unmade : ¬ Created start world id := fun made => by
          have lt := made.2
          omega
        have unborn : ¬ Present start id := fun here => by
          have lt := early here
          omega
        subst new
        simp [unmade, unborn]
      · simp only [new, or_false]
    simp only [same]
    omega

theorem consistent_delete {id : Nat} (remembers : memory[i]? = some .looking)
    (consistent : Consistent start world memory) (here : Present world id) :
    Consistent start { world with shelf := world.shelf.delete id }
      (memory.set i (.deleted id)) := by
  have present (other : Nat) : Present { world with shelf := world.shelf.delete id } other ↔
      Present world other ∧ other ≠ id := by
    constructor
    · rintro ⟨item, member, rfl⟩
      obtain ⟨old, different⟩ := List.mem_filter.mp member
      exact ⟨⟨item, old, rfl⟩, by simpa using different⟩
    · rintro ⟨⟨item, member, rfl⟩, different⟩
      exact ⟨item, List.mem_filter.mpr ⟨member, by simpa using different⟩, rfl⟩
  have made (other : Nat) : Created start { world with shelf := world.shelf.delete id } other ↔
      Created start world other := Iff.rfl
  have old (item : LibraryItem) (member : item ∈ (world.shelf.delete id).items.rows) :
      item ∈ world.shelf.items.rows := (List.mem_filter.mp member).1
  refine ⟨fun a ha b hb => consistent.pairs a (old a ha) b (old b hb), consistent.grown,
    fun other there => consistent.known other ((present other).mp there).1, fun other => ?_,
    fun other => ?_, not_broken_of_set consistent.unbroken (by simp)⟩
  · have counted := Pool.countP_set_of_some (owesAdded other) remembers (.deleted id)
    have before := consistent.added other
    simp only [owesAdded, Bool.false_eq_true, if_false, Nat.add_zero] at counted
    rw [counted]
    exact before
  · have counted := Pool.countP_set_of_some (owesRemoved other) remembers (.deleted id)
    have before := consistent.removed other
    have events : (world.shelf.delete id).events = world.shelf.events := rfl
    rw [events]
    simp only [owesRemoved, decide_eq_true_eq, Bool.false_eq_true, if_false] at counted
    have known := consistent.known id here
    have gone : Deleted start { world with shelf := world.shelf.delete id } other ↔
        Deleted start world other ∨ other = id := by
      simp only [Deleted, made other, present other]
      by_cases own : other = id
      · subst own
        simp [known]
      · simp [own]
    have fresh (own : other = id) : ¬ Deleted start world other := fun gone => gone.2 (own ▸ here)
    simp only [gone]
    by_cases own : other = id
    · rw [if_neg (fresh own)] at before
      rw [if_pos own.symm] at counted
      rw [if_pos (Or.inr own)]
      omega
    · rw [if_neg (fun same => own same.symm)] at counted
      simp only [own, or_false]
      omega

/-- An announcement that was owed. -/
theorem consistent_announce {event : LibraryEvent} (remembers : memory[i]? = some g)
    (consistent : Consistent start world memory)
    (owed : ∀ id, owesAdded id g = added id event ∧ owesRemoved id g = removed id event) :
    Consistent start { world with shelf := world.shelf.announce event }
      (memory.set i .looking) := by
  refine ⟨consistent.pairs, consistent.grown, consistent.known, fun id => ?_, fun id => ?_,
    not_broken_of_set consistent.unbroken (by simp)⟩
  · have counted := Pool.countP_set_of_some (owesAdded id) remembers .looking
    have before := consistent.added id
    have events : (world.shelf.announce event).events = world.shelf.events ++ [event] := rfl
    rw [(owed id).1] at counted
    rw [events, List.countP_append, List.countP_singleton]
    simp only [owesAdded, Bool.false_eq_true, if_false] at counted
    have made : Created start { world with shelf := world.shelf.announce event } id ↔
        Created start world id := Iff.rfl
    simp only [made]
    omega
  · have counted := Pool.countP_set_of_some (owesRemoved id) remembers .looking
    have before := consistent.removed id
    have events : (world.shelf.announce event).events = world.shelf.events ++ [event] := rfl
    rw [(owed id).2] at counted
    rw [events, List.countP_append, List.countP_singleton]
    simp only [owesRemoved, Bool.false_eq_true, if_false] at counted
    have gone : Deleted start { world with shelf := world.shelf.announce event } id ↔
        Deleted start world id := Iff.rfl
    simp only [gone]
    omega

theorem consistent_preserves (start : World) :
    Pool.Preserves exec keeping (fun choice world _ op => Unraced choice world op)
      (Consistent start) := by
  intro choice world memory i g op remembers consistent allowed ⟨performed, unraced⟩
  rw [exec_performed performed]
  cases op with
  | findPayment | findBook | findByUserAndBook | findByRentalId | findById | forget =>
    dsimp only [keeping, Phase.after, World.perform]
    rw [Pool.set_of_some remembers]
    exact consistent
  | create userId bookId rentalId status =>
    cases (allowed : g = .looking)
    exact consistent_create remembers consistent unraced
  | delete id =>
    cases (allowed : g = .looking)
    exact consistent_delete remembers consistent unraced
  | emit event =>
    refine consistent_announce remembers consistent fun id => ?_
    cases event with
    | itemAdded item userId bookId =>
      cases (allowed : g = .created item userId bookId)
      exact ⟨rfl, rfl⟩
    | itemRemoved item userId =>
      cases (allowed : g = .deleted item)
      exact ⟨rfl, rfl⟩

end Steps

section Runs

abbrev Shelving : Type := Pool World Call Call.Answer (Except Failure Unit)

def shelving (start : World) (requests : List Request) : Shelving :=
  ⟨start, requests.map (·.run.run)⟩

/-- A pair has one entry, and every entry that was created or deleted is announced at most once,
and exactly once when all requests are done. -/
structure Kept (start : World) (pool : Shelving) : Prop where
  pairs : ∀ a ∈ pool.state.shelf.items.rows, ∀ b ∈ pool.state.shelf.items.rows,
    a.pair = b.pair → a = b
  added : ∀ id, pool.state.shelf.events.countP (added id) ≤
    start.shelf.events.countP (added id) + if Created start pool.state id then 1 else 0
  removed : ∀ id, pool.state.shelf.events.countP (removed id) ≤
    start.shelf.events.countP (removed id) + if Deleted start pool.state id then 1 else 0
  exactly : pool.Finished → ∀ id,
    pool.state.shelf.events.countP (Library.added id) =
      start.shelf.events.countP (Library.added id) +
        (if Created start pool.state id then 1 else 0) ∧
    pool.state.shelf.events.countP (Library.removed id) =
      start.shelf.events.countP (Library.removed id) +
        (if Deleted start pool.state id then 1 else 0)

variable {start : World} {requests : List Request}

theorem requests_reach (requests : List Request) :
    List.Forall₂ (keeping.Reaches fun _ => Rests) (requests.map fun _ => Phase.looking)
      (requests.map (·.run.run)) := by
  induction requests with
  | nil => exact .nil
  | cons request rest ih => exact .cons (request_announces request) ih

theorem consistent_begun
    (single : ∀ a ∈ start.shelf.items.rows, ∀ b ∈ start.shelf.items.rows, a.pair = b.pair → a = b)
    (requests : List Request) : Consistent start start (requests.map fun _ => .looking) := by
  have looking (p : Phase → Bool) (idle : p .looking = false) :
      (requests.map fun _ => Phase.looking).countP p = 0 := by
    refine List.countP_eq_zero.mpr fun g member => ?_
    obtain ⟨request, -, rfl⟩ := List.mem_map.mp member
    simp [idle]
  refine ⟨single, Nat.le_refl _, fun id here => Or.inl here, fun id => ?_, fun id => ?_, ?_⟩
  · have unmade : ¬ Created start start id := fun made => by
      have lt := made.1
      have ge := made.2
      omega
    rw [looking _ rfl, if_neg unmade]
  · have here : ¬ Deleted start start id := by
      rintro ⟨old | made, gone⟩
      · exact gone old
      · have lt := made.1
        have ge := made.2
        omega
    rw [looking _ rfl, if_neg here]
  · simp

theorem kept_of_consistent {pool : Shelving} {memory : List Phase}
    (consistent : Consistent start pool.state memory)
    (reached : List.Forall₂ (keeping.Reaches fun _ => Rests) memory pool.threads) :
    Kept start pool := by
  refine ⟨consistent.pairs, fun id => ?_, fun id => ?_, fun finished id => ?_⟩
  · have counted := consistent.added id
    omega
  · have counted := consistent.removed id
    omega
  · have looking (p : Phase → Bool) (idle : p .looking = false) : memory.countP p = 0 := by
      refine List.countP_eq_zero.mpr fun g member => ?_
      rcases Pool.post_of_finished reached finished g member with rfl | rfl
      · simp [idle]
      · exact absurd member consistent.unbroken
    have added := consistent.added id
    have removed := consistent.removed id
    rw [looking _ rfl] at added removed
    exact ⟨added, removed⟩

/-- In any interleaving in which every entry that is created is the first of its pair and every
delete finds its entry, a pair has one entry, announced once. -/
theorem entries_kept
    (single : ∀ a ∈ start.shelf.items.rows, ∀ b ∈ start.shelf.items.rows, a.pair = b.pair → a = b)
    {schedule : List (Nat × Choice)}
    (unraced : Pool.EachCall exec Unraced schedule (shelving start requests)) :
    Kept start ((shelving start requests).run exec schedule) := by
  have reached : List.Forall₂ (keeping.Reaches fun _ => Rests)
      (requests.map fun _ => Phase.looking) (shelving start requests).threads :=
    requests_reach requests
  have follow : Pool.Follow keeping (requests.map fun _ => Phase.looking)
      (shelving start requests) := reached.imp fun _ _ reaches => reaches.follows
  have meets := Pool.meets_of_eachCall exec keeping unraced (requests.map fun _ => Phase.looking)
  have run := Pool.run_invariant (consistent_preserves start) (consistent_begun single requests)
    follow meets
  exact kept_of_consistent run.1 (Pool.run_reaches reached schedule)

end Runs

section Examples

/-- One free book and an empty shelf. -/
def freeBook : World := ⟨.empty, [⟨"book", none, true, none, none⟩], .empty⟩

/-- A rented book is on the shelf. -/
def rented : World :=
  { freeBook with shelf := (Shelf.empty.grant "reader" "book" (some 0) .rented).2 }

def turns (order : List Nat) : List (Nat × Choice) := order.map (·, {})

/-- A book is claimed twice, the second time once it is on the shelf, and a rental ends twice. -/
theorem entries_kept_apart :
    Kept rented ((shelving rented [.rentalReturned 0, .rentalExpired 0,
      .claimFreeBook "reader" "book", .claimFreeBook "reader" "book"]).run exec
        (turns [0, 0, 0, 0, 0, 0, 1, 2, 2, 2, 3, 3, 2])) :=
  entries_kept (by decide) (by decide)

/-- Both claims look before either creates its entry. -/
def claimedTwice : Shelving :=
  (shelving freeBook [.claimFreeBook "reader" "book", .claimFreeBook "reader" "book"]).run exec
    (turns [0, 0, 1, 1, 0, 1, 0, 1])

/-- Both endings of a rental find the entry before either deletes it. -/
def endedTwice : Shelving :=
  (shelving rented [.rentalReturned 0, .rentalExpired 0]).run exec
    (turns [0, 0, 0, 1, 1, 1, 0, 0, 0, 1, 1, 1])

/-- A pair has two entries, and one entry is announced to go twice. -/
theorem entries_doubled :
    claimedTwice.state.shelf.items.rows.map (·.pair) = [("reader", "book"), ("reader", "book")] ∧
    endedTwice.state.shelf.events.countP (removed 0) = 2 ∧
    ¬ Kept freeBook claimedTwice ∧ ¬ Kept rented endedTwice := by
  have two : ∃ a ∈ claimedTwice.state.shelf.items.rows, ∃ b ∈ claimedTwice.state.shelf.items.rows,
      a.pair = b.pair ∧ a ≠ b := by
    decide
  have twice : rented.shelf.events.countP (removed 0) = 0 ∧
      endedTwice.state.shelf.events.countP (removed 0) = 2 := by
    decide
  refine ⟨by decide, twice.2, fun kept => ?_, fun kept => ?_⟩
  · obtain ⟨a, ha, b, hb, same, different⟩ := two
    exact different (kept.pairs a ha b hb same)
  · have atMost := kept.removed 0
    rw [twice.1, twice.2] at atMost
    split at atMost <;> omega

end Examples
end Library
