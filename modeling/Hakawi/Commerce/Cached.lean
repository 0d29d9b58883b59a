import Hakawi.Commerce.Services

/-!
# Rows in the cache

Payments and rentals are cached under their ids, each table under its own tag. What is cached is
current, apart from the rows that have been written since.
-/

namespace Commerce
open Html Common Effects Caching Payments Rentals Library Store

/-- How the rows of one table are cached. -/
structure RowCache (α : Type) where
  cacheNamespace : Units
  tag : Units
  print : Nat → Units
  print_injective : ∀ id id', print id = print id' → id = id'
  json : RowJson α
  find : Database → Nat → Option α
  deletedAt : α → Option Int
  /-- The row that a statement changes. -/
  writes : Statement → Option Nat
  find_apply : ∀ schema pick db (statement : Statement) id row, find db id = some row →
    writes statement ≠ some id → find (db.apply schema pick statement).2 id = some row
  apart : Apart fun key => ∃ text, key = TaggedCacheService.buildKey cacheNamespace text

/-- What is on the store. -/
def World.store (world : World) : StoreState := ⟨world.clock, world.cache⟩

namespace RowCache
variable {α β : Type} (c : RowCache α) (d : RowCache β)

def IsKey (key : Units) : Prop := ∃ text, key = TaggedCacheService.buildKey c.cacheNamespace text

def key (id : Nat) : Units := TaggedCacheService.buildKey c.cacheNamespace (c.print id)

theorem isKey_key (id : Nat) : c.IsKey (c.key id) := ⟨_, rfl⟩

theorem key_injective {id id' : Nat} (same : c.key id = c.key id') : id = id' :=
  c.print_injective id id' (List.append_cancel_left same)

/-- A lookup would return the row. -/
def Holds (world : World) (id : Nat) (row : α) : Prop :=
  ∃ e content, world.store.live (c.key id) = some e ∧ e.content = .text content ∧
    content.parseJson.bind c.json.revive = some (some row)

/-- A row as it is. -/
def Current (db : Database) (id : Nat) (row : α) : Prop :=
  c.find db id = some row ∧ c.deletedAt row = none

/-- What is cached, apart from some rows, is current. -/
structure Sound (gone : Nat → Prop) (world : World) : Prop where
  tidy : Tidy c.IsKey c.tag world.store
  current : ∀ id row, c.Holds world id row → ¬ gone id → c.Current world.primary id row

variable {c d} {gone gone' : Nat → Prop} {before after : World} {id : Nat} {row : α}
  {schema : TransactionsSchema}

theorem Sound.weaken (sound : c.Sound gone before) (more : ∀ id, gone id → gone' id) :
    c.Sound gone' before :=
  ⟨sound.tidy, fun id row holds kept => sound.current id row holds fun left => kept (more id left)⟩

/-- What is not cached need not be current. -/
theorem Sound.absent (sound : c.Sound gone before)
    (absent : ∀ id, gone id → ∀ row, ¬ c.Holds before id row) : c.Sound (fun _ => False) before :=
  ⟨sound.tidy, fun id row holds _ => sound.current id row holds fun left =>
    absent id left row holds⟩

theorem holds_of_later {put : Units → Text → Prop} {left : Units → Prop}
    (leaves : Leaves c.IsKey c.tag put left before.store after.store) (holds : c.Holds after id row) :
    c.Holds before id row ∧ ¬ left (c.key id) ∨ ∃ content, put (c.key id) content ∧
      content.parseJson.bind c.json.revive = some (some row) := by
  obtain ⟨e, content, found, text, revived⟩ := holds
  rcases leaves.values _ (c.isKey_key id) e found with ⟨old, kept⟩ | ⟨content', text', puts⟩
  · exact Or.inl ⟨⟨e, content, old, text, revived⟩, kept⟩
  · cases text.symm.trans text'
    exact Or.inr ⟨content, puts, revived⟩

theorem holds_of_faded {left : Units → Prop}
    (faded : Faded c.IsKey c.tag left before.store after.store) (holds : c.Holds after id row) :
    c.Holds before id row ∧ ¬ left (c.key id) := by
  rcases holds_of_later faded holds with old | ⟨content, never, revived⟩
  · exact old
  · exact never.elim

/-- The cache moves on. -/
theorem Sound.faded {left : Units → Prop} (sound : c.Sound gone before)
    (same : after.primary = before.primary)
    (faded : Faded c.IsKey c.tag left before.store after.store) :
    c.Sound (fun id => gone id ∧ ¬ left (c.key id)) after := by
  refine ⟨faded.tidy, fun id row holds kept => ?_⟩
  obtain ⟨old, remains⟩ := holds_of_faded faded holds
  rw [same]
  exact sound.current id row old fun absent => kept ⟨absent, remains⟩

theorem Sound.still (sound : c.Sound gone before) (same : after.primary = before.primary)
    (faded : Faded c.IsKey c.tag (fun _ => False) before.store after.store) :
    c.Sound gone after :=
  (sound.faded same faded).weaken fun _ absent => absent.1

/-- What is put is current. -/
theorem Sound.stored {put : Units → Text → Prop} (sound : c.Sound gone before)
    (same : after.primary = before.primary)
    (leaves : Leaves c.IsKey c.tag put (fun _ => False) before.store after.store)
    (puts : ∀ id content row, put (c.key id) content →
      content.parseJson.bind c.json.revive = some (some row) → c.Current before.primary id row) :
    c.Sound gone after := by
  refine ⟨leaves.tidy, fun id row holds kept => ?_⟩
  rw [same]
  rcases holds_of_later leaves holds with ⟨old, -⟩ | ⟨content, put, revived⟩
  · exact sound.current id row old kept
  · exact puts id content row put revived

end RowCache

section Tables
variable {schema : TransactionsSchema} {pick : Nat} {db : Database}

/-- The payment that a statement changes. -/
def Statement.writesPayment : Statement → Option Nat
  | .updatePayment id _ => some id
  | .reserveRefundCapacity input => some input.paymentId
  | .reconcileRefundCapacity paymentId => some paymentId
  | _ => none

def Statement.writesRental : Statement → Option Nat
  | .updateRental id _ => some id
  | _ => none

/-- A statement that is rejected changes nothing. -/
theorem apply_of_perform {P : Database → Prop} {statement : Statement} (kept : P db)
    (performs : ∀ answer after, db.perform schema pick statement = .ok (answer, after) → P after) :
    P (db.apply schema pick statement).2 := by
  rw [Database.apply]
  cases performed : db.perform schema pick statement with
  | error e => exact kept
  | ok done => exact performs done.1 done.2 performed

theorem onLedger_eq_ok {β : Type} {changed : Except Failure (β × Ledger)} {answer : β}
    {after : Database} (changes : db.onLedger changed = .ok (answer, after)) :
    ∃ ledger, changed = .ok (answer, ledger) ∧ after = { db with ledger } := by
  cases changed with
  | error e => cases changes
  | ok done =>
    cases changes
    exact ⟨done.2, rfl, rfl⟩

theorem findById_repairDerivedStatus {ledger : Ledger} {payment : Payment} {id : Nat} (full : Bool)
    (other : id ≠ payment.id) :
    (ledger.repairDerivedStatus payment full).2.findById id = ledger.findById id := by
  rw [Ledger.repairDerivedStatus]
  split
  · exact (Ledger.findById_modifyPayment _ _ _ _).trans (if_neg other)
  · split
    · exact (Ledger.findById_modifyPayment _ _ _ _).trans (if_neg other)
    · rfl

theorem findPayment_apply (statement : Statement) {id : Nat} {payment : Payment}
    (found : db.ledger.findById id = some payment) (other : statement.writesPayment ≠ some id) :
    (db.apply schema pick statement).2.ledger.findById id = some payment := by
  refine apply_of_perform (P := fun db => db.ledger.findById id = some payment) found ?_
  intro answer after performed
  cases statement with
  | updatePayment id' patch =>
    have apart : id ≠ id' := fun same => other (congrArg some same.symm)
    obtain ⟨ledger, changed, rfl⟩ := onLedger_eq_ok performed
    rw [Ledger.update] at changed
    split at changed
    · cases changed
    · cases changed
      exact ((Ledger.findById_modifyPayment _ _ _ _).trans (if_neg apart)).trans found
  | createPayment data =>
    cases performed
    have old : id ≠ db.ledger.payments.next := (Table.lt_next_of_find? found).ne
    exact ((Table.find?_insert _ _ _ _).trans (if_neg old)).trans found
  | createTransaction data =>
    obtain ⟨ledger, changed, rfl⟩ := onLedger_eq_ok performed
    rw [Ledger.createTransaction] at changed
    split at changed
    · cases changed
    · split at changed <;> cases changed
      exact found
  | reserveRefundCapacity input =>
    have apart : id ≠ input.paymentId := fun same => other (congrArg some same.symm)
    obtain ⟨ledger, changed, rfl⟩ := onLedger_eq_ok performed
    obtain ⟨locked, -, -, -, admitted⟩ := Ledger.reserveRefundCapacity_ok changed
    cases admitted
    exact (Ledger.admitRefund_findById_ne _ _ _ _ apart).trans found
  | reconcileRefundCapacity paymentId =>
    obtain ⟨ledger, changed, rfl⟩ := onLedger_eq_ok performed
    obtain ⟨locked, lock, -, repaired⟩ := Ledger.reconcileRefundCapacity_ok changed
    have same : locked.id = paymentId := Table.key_of_find? (Ledger.lockPayment_eq_ok.mp lock).1
    have apart : id ≠ locked.id := fun equal => other (congrArg some (equal.trans same).symm)
    cases repaired
    exact (findById_repairDerivedStatus _ apart).trans found
  | createBook book =>
    simp only [Database.perform] at performed
    split at performed <;> cases performed
    exact found
  | _ =>
    cases performed
    exact found

theorem findRental_apply (statement : Statement) {id : Nat} {rental : Rental}
    (found : db.rentals.findById id = some rental) (other : statement.writesRental ≠ some id) :
    (db.apply schema pick statement).2.rentals.findById id = some rental := by
  refine apply_of_perform (P := fun db => db.rentals.findById id = some rental) found ?_
  intro answer after performed
  cases statement with
  | updateRental id' patch =>
    have apart : id ≠ id' := fun same => other (congrArg some same.symm)
    cases performed
    have same : (db.rentals.update id' patch).findById id = db.rentals.findById id :=
      (Table.find?_modify _ _ _ patch.apply_id _).trans (if_neg apart)
    exact same.trans found
  | createRental now userId bookId durationDays =>
    cases performed
    have old : id ≠ db.rentals.rentals.next := (Table.lt_next_of_find? found).ne
    exact ((Table.find?_insert _ _ _ _).trans (if_neg old)).trans found
  | createBook book =>
    simp only [Database.perform] at performed
    split at performed <;> cases performed
    exact found
  | updatePayment _ _ | createTransaction _ | reserveRefundCapacity _ | reconcileRefundCapacity _ =>
    obtain ⟨ledger, -, rfl⟩ := onLedger_eq_ok performed
    exact found
  | _ =>
    cases performed
    exact found

variable (texts : RowTexts)

theorem print_injective (id id' : Nat) (same : texts.ids.print id = texts.ids.print id') :
    id = id' := by
  have parsed := congrArg texts.ids.parse same
  rw [texts.ids.parse_print, texts.ids.parse_print] at parsed
  exact Option.some.inj parsed

def paymentCache : RowCache Payment where
  cacheNamespace := units PAYMENT_CACHE_NAMESPACE
  tag := units PAYMENTS_CACHE_TAG
  print := texts.ids.print
  print_injective := print_injective texts
  json := paymentJson texts
  find db id := db.ledger.findById id
  deletedAt := Payment.deletedAt
  writes := Statement.writesPayment
  find_apply _ _ _ statement _ _ := findPayment_apply statement
  apart := by
    constructor <;> rintro tag ⟨text, same⟩ <;> cases congrArg (fun key => key[6]?) same

def rentalCache : RowCache Rental where
  cacheNamespace := RENTAL_CACHE_NAMESPACE
  tag := RENTALS_CACHE_TAG
  print := texts.ids.print
  print_injective := print_injective texts
  json := rentalJson texts
  find db id := db.rentals.findById id
  deletedAt := Rental.deletedAt
  writes := Statement.writesRental
  find_apply _ _ _ statement _ _ := findRental_apply statement
  apart := by
    constructor <;> rintro tag ⟨text, same⟩ <;> cases congrArg (fun key => key[6]?) same

/-- The keys differ at their seventh unit. -/
theorem payment_key_ne (text : Units) : ¬ (rentalCache texts).IsKey
    (TaggedCacheService.buildKey (paymentCache texts).cacheNamespace text) := by
  rintro ⟨text', same⟩
  cases congrArg (fun key => key[6]?) same

theorem rental_key_ne (text : Units) : ¬ (paymentCache texts).IsKey
    (TaggedCacheService.buildKey (rentalCache texts).cacheNamespace text) := by
  rintro ⟨text', same⟩
  cases congrArg (fun key => key[6]?) same

end Tables

section Calls
variable {α : Type} {c : RowCache α} {gone : Nat → Prop} {world : World} {id : Nat} {row : α}
  {schema : TransactionsSchema} {choice : Choice} {call : Call}

theorem store_perform (plain : ∀ command, call ≠ .cache command) :
    (World.perform schema choice world call).2.store = world.store := by
  cases call with
  | cache command => exact absurd rfl (plain command)
  | refundAttempt transactionId amountCents =>
    simp only [World.perform]
    split <;> rfl
  | _ => rfl

/-- A call that is no command of the cache only lets time pass there. -/
theorem store_exec (plain : ∀ command, call ≠ .cache command) :
    (World.exec schema choice world call).2.store = ⟨world.clock + choice.elapsed, world.cache⟩ := by
  rw [World.exec]
  split
  · exact store_perform plain
  · dsimp only
    split
    · exact store_perform plain
    · rfl

theorem find_respond {statement : Statement} (found : c.find world.primary id = some row)
    (other : c.writes statement ≠ some id) :
    c.find (world.respond schema choice statement).2 id = some row := by
  rw [World.respond]
  split
  · exact c.find_apply schema _ _ statement id row found other
  · split
    · exact found
    · exact c.find_apply schema _ _ statement id row found other

theorem find_perform (world : World) (found : c.find world.primary id = some row)
    (other : ∀ statement, call = .query statement → c.writes statement ≠ some id) :
    c.find (World.perform schema choice world call).2.primary id = some row := by
  cases call with
  | query statement => exact find_respond found (other statement rfl)
  | refundAttempt transactionId amountCents =>
    simp only [World.perform]
    split <;> exact found
  | _ => exact found

/-- A row stays as it is, unless a statement changes it. -/
theorem find_exec (found : c.find world.primary id = some row)
    (other : ∀ statement, call = .query statement → c.writes statement ≠ some id) :
    c.find (World.exec schema choice world call).2.primary id = some row := by
  rw [World.exec]
  split
  · exact find_perform { world with clock := world.clock + choice.elapsed } found other
  · dsimp only
    split
    · exact find_perform { world with clock := world.clock + choice.elapsed } found other
    · exact found

variable (schema choice) in
theorem RowCache.Sound.faded_exec (sound : c.Sound gone world)
    (plain : ∀ command, call ≠ .cache command) :
    Faded c.IsKey c.tag (fun _ => False) world.store
      (World.exec schema choice world call).2.store := by
  rw [store_exec plain]
  exact sound.tidy.wait (fun _ _ => False) choice.elapsed

/-- A call that is no command of the cache: what is cached of a row it changes is to be dropped. -/
theorem RowCache.Sound.exec (sound : c.Sound gone world) (plain : ∀ command, call ≠ .cache command)
    (written : ∀ statement id, call = .query statement → c.writes statement = some id →
      (∃ row, c.Holds world id row) → gone id) :
    c.Sound gone (World.exec schema choice world call).2 := by
  have faded := sound.faded_exec schema choice plain
  refine ⟨faded.tidy, fun id row holds kept => ?_⟩
  have old := (holds_of_faded faded holds).1
  have current := sound.current id row old kept
  refine ⟨find_exec current.1 fun statement queries writes => ?_, current.2⟩
  exact kept (written statement id queries writes ⟨row, old⟩)

end Calls

section Rules
variable {schema : TransactionsSchema} {ok : Choice → World → Call → Prop} {world : World}
  {α β : Type} {c : RowCache α} {d : RowCache β} {gone lost : Nat → Prop} {id : Nat}

/-- Commands of the cache are carried out. -/
def Available (ok : Choice → World → Call → Prop) : Prop :=
  ∀ choice world command, ok choice world (.cache command) → choice.fault = none

/-- A method of the cache service, from what it does on a store that answers. -/
theorem wpE_cache (available : Available ok) {D γ : Type} {p : CacheCalls D γ}
    {Q : Except Failure γ → StoreState → Prop} (does : wpE storeSpec p Q world.store) :
    wpE (Program.assuming (World.exec schema) ok) (cache p) (fun result after => ∃ state,
      Q result state ∧ after = { world with clock := state.clock, cache := state.store }) world := by
  rw [wpE, cache, ExceptT.run_mk, Program.wp_expand]
  change p.run.wp storeSpec Q world.store at does
  generalize p.run = program at does ⊢
  induction program generalizing world with
  | done result => exact ⟨world.store, does, rfl⟩
  | call call next ih =>
    cases call with
    | readDatabase => exact ih _ (does 0 trivial)
    | changeDatabase change => exact ih _ (does 0 trivial)
    | valkey command =>
      intro choice chosen
      have carried := available choice world command chosen
      obtain ⟨elapsed, fault, pick, served, authToken, checkout, attempt⟩ := choice
      cases carried
      have later : (next (world.cache.exec (world.clock + elapsed) command).1).wp storeSpec Q
          (World.store { world with
            clock := world.clock + elapsed
            cache := (world.cache.exec (world.clock + elapsed) command).2 }) := does elapsed trivial
      exact ih _ later

/-- Both caches move on; nothing is put. -/
theorem wpE_cache_faded (available : Available ok) (sound : c.Sound gone world)
    (other : d.Sound lost world) {D γ : Type} {p : CacheCalls D γ} {left left' : Units → Prop}
    (fades : wpE storeSpec p (fun _ after => Faded c.IsKey c.tag left world.store after) world.store)
    (fades' : wpE storeSpec p (fun _ after => Faded d.IsKey d.tag left' world.store after)
      world.store) :
    wpE (Program.assuming (World.exec schema) ok) (cache p) (fun _ after =>
      c.Sound (fun id => gone id ∧ ¬ left (c.key id)) after ∧
        d.Sound (fun id => lost id ∧ ¬ left' (d.key id)) after) world := by
  refine wpE_mono (Program.assuming_monotone _ _) ?_
    (wpE_cache available (Program.wp_and fades fades'))
  rintro result _ ⟨state, ⟨faded, faded'⟩, rfl⟩
  exact ⟨sound.faded rfl faded, other.faded rfl faded'⟩

/-- The row that is invalidated is no longer cached. -/
theorem wpE_invalidateKey (available : Available ok) (sound : c.Sound gone world)
    (other : d.Sound lost world) (D : Type) (id : Nat) (tags : List Units) :
    wpE (Program.assuming (World.exec schema) ok) (cache (TaggedCacheService.invalidateKey
      c.cacheNamespace (c.print id) tags : CacheCalls D Unit)) (fun _ after =>
        c.Sound (fun k => gone k ∧ k ≠ id) after ∧ d.Sound lost after) world := by
  refine wpE_mono (Program.assuming_monotone _ _) ?_ (wpE_cache_faded available sound other
    (wpE_dropsKey c.cacheNamespace (c.print id) tags c.apart sound.tidy)
    (wpE_dropsKey c.cacheNamespace (c.print id) tags d.apart other.tidy))
  rintro result after ⟨dropped, same⟩
  refine ⟨dropped.weaken fun k left => ⟨left.1, ?_⟩, same.weaken fun k left => left.1⟩
  rintro rfl
  exact left.2 rfl

theorem wpE_invalidateTags (available : Available ok) (sound : c.Sound gone world)
    (other : d.Sound lost world) (D : Type) (tags : List Units) :
    wpE (Program.assuming (World.exec schema) ok)
      (cache (TaggedCacheService.invalidateTags tags : CacheCalls D Unit)) (fun _ after =>
        c.Sound gone after ∧ d.Sound lost after) world := by
  have sweeps {Value : Units → Prop} {tag : Units} (apart : Caching.Apart Value)
      (tidy : Tidy Value tag world.store) := wpE_mono (Program.execSpec_monotone _ _)
    (fun _ _ ends => ends.1) (Caching.wpE_invalidateTags tags apart tidy (D := D))
  refine wpE_mono (Program.assuming_monotone _ _) ?_ (wpE_cache_faded available sound other
    (sweeps c.apart sound.tidy) (sweeps d.apart other.tidy))
  rintro result after ⟨swept, swept'⟩
  exact ⟨swept.weaken fun k left => left.1, swept'.weaken fun k left => left.1⟩

/-- A hit returns what is current, a miss what is loaded. -/
theorem wpE_getOrSet (available : Available ok)
    (disjoint : ∀ text, ¬ d.IsKey (TaggedCacheService.buildKey c.cacheNamespace text))
    (sound : c.Sound (fun _ => False) world) (other : d.Sound (fun _ => False) world)
    {P : Except Failure α → Prop} {ttl : Int} (positive : 0 < ttl) (load : Method α)
    (hits : ∀ row, c.Current world.primary id row → P (.ok row))
    (loads : ∀ between, c.Sound (fun _ => False) between → d.Sound (fun _ => False) between →
      between.primary = world.primary →
      wpE (Program.assuming (World.exec schema) ok) load (fun result after =>
        c.Sound (fun _ => False) after ∧ d.Sound (fun _ => False) after ∧
          after.primary = world.primary ∧ P result ∧
            ∀ row, result = .ok row → c.Current world.primary id row) between) :
    wpE (Program.assuming (World.exec schema) ok)
      (getOrSet c.json c.cacheNamespace (c.print id) ttl c.tag load) (fun result after =>
        c.Sound (fun _ => False) after ∧ d.Sound (fun _ => False) after ∧ P result) world := by
  have fades : wpE storeSpec (TaggedCacheService.get c.cacheNamespace (c.print id) c.json.revive)
      (fun _ after => Faded d.IsKey d.tag (fun _ => False) world.store after) world.store :=
    wpE_orderly (orderly_get _ _ _) d.apart other.tidy
  have looks := Program.wp_and
    (wpE_get c.cacheNamespace (c.print id) c.json.revive c.apart sound.tidy ⟨_, rfl⟩) fades
  refine wpE_seq (Program.assuming_monotone _ _) (wpE_cache available looks) ?_ ?_
  · rintro e after ⟨state, ⟨⟨-, found, thrown, -⟩, -⟩, -⟩
    cases thrown
  rintro found _ ⟨state, ⟨⟨faded, _, returned, revived⟩, faded'⟩, rfl⟩
  cases returned
  have looked : c.Sound (fun _ => False)
      { world with clock := state.clock, cache := state.store } := sound.still rfl faded
  have looked' : d.Sound (fun _ => False)
      { world with clock := state.clock, cache := state.store } := other.still rfl faded'
  cases found with
  | some row =>
    obtain ⟨e, text, live, holds, reads⟩ := revived row rfl
    exact ⟨looked, looked', hits row (sound.current id row ⟨e, text, live, holds, reads⟩
      fun never => never)⟩
  | none =>
    have fades' : wpE storeSpec (readTagGenerationSnapshot [c.tag] : CacheCalls α _)
        (fun _ after => Faded d.IsKey d.tag (fun _ => False) state after) state :=
      wpE_orderly (orderly_readTagGenerationSnapshot [c.tag]) d.apart looked'.tidy
    have snapshot := Program.wp_and
      (Caching.wpE_readTagGenerationSnapshot [c.tag] c.apart looked.tidy (D := α)) fades'
    refine wpE_seq (Program.assuming_monotone _ _) (wpE_cache available snapshot) ?_ ?_
    · rintro e after ⟨state', ⟨⟨-, generations, thrown⟩, -⟩, -⟩
      cases thrown
    rintro generations _ ⟨state', ⟨⟨faded, _, returned⟩, faded'⟩, rfl⟩
    cases returned
    refine wpE_seq (Program.assuming_monotone _ _)
      (loads _ (looked.still rfl faded) (looked'.still rfl faded') rfl)
      (fun e after ends => ⟨ends.1, ends.2.1, ends.2.2.2.1⟩) ?_
    rintro loaded after ⟨fresh, fresh', same, holds, current⟩
    have stores := Program.wp_and
      (wpE_set c.cacheNamespace (c.print id) (c.json.stringify loaded) positive [c.tag] generations
        c.apart fresh.tidy ⟨_, rfl⟩ (D := α))
      (wpE_set_elsewhere c.cacheNamespace (c.print id) (c.json.stringify loaded) ttl [c.tag]
        generations d.apart fresh'.tidy (disjoint _) (fun index => c.apart.index d.tag ⟨_, index.symm⟩)
        (fun generation => c.apart.generation d.tag ⟨_, generation.symm⟩))
    refine wpE_seq (Program.assuming_monotone _ _) (wpE_cache available stores) ?_ ?_
    · rintro e last ⟨state'', ⟨⟨-, _, thrown⟩, -⟩, -⟩
      cases thrown
    rintro _ _ ⟨state'', ⟨⟨leaves, _, -⟩, faded⟩, rfl⟩
    have stored : c.Sound (fun _ => False)
        { after with clock := state''.clock, cache := state''.store } := by
      refine fresh.stored rfl leaves fun id' content row put revives => ?_
      obtain ⟨here, rfl⟩ := put
      cases c.key_injective here
      rw [parseJson_stringify] at revives
      cases c.json.revive_stringify _ _ revives
      rw [same]
      exact current loaded rfl
    exact ⟨stored, fresh'.still rfl faded, holds⟩

end Rules
end Commerce
