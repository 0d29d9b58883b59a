import Hakawi.Entitlements.Listeners
import Hakawi.Entitlements.RentalGrant

/-!
# Access and the way back to it

Whether a reader may read is decided by the entry on the shelf and the dates of the
rental; whether a book may be bought or rented is decided by the entry alone. A
`rented` entry always names the newest rental of its pair, and that rental is
active, so the two disagree only about a rental whose end date has passed.
-/

namespace Entitlements

open Common Payments Rentals Library Effects

/-- What readers and authors can do, with every handler run to its end. -/
inductive Visit where
  | request (elapsed : Nat) (request : Request)
  | wait (elapsed : Nat)
  | claimFreeBook (userId bookId : String)
  | removeFromLibrary (itemId : Nat) (userId : String)
  | putBook (book : Book)

namespace World
variable (world : World)

def claimFreeBook (userId bookId : String) : Except Failure (LibraryItem × Shelf) :=
  match world.books.find? (·.id = bookId) with
  | none => .error (.notFound "Book not found")
  | some book =>
    if book.deletedAt.isSome then .error (.notFound "Book not found")
    else if ¬ book.isFree then
      .error (.forbidden "This book is not free. Purchase it to add it to your library.")
    else world.shelf.addToLibrary userId bookId none

def visit (platform : Platform) (world : World) : Visit → World
  | .request elapsed request => world.step platform (elapsed, request)
  | .wait elapsed => world.later elapsed
  | .claimFreeBook userId bookId =>
    { world with shelf := settledOr world.shelf ((world.claimFreeBook userId bookId).map Prod.snd) }
  | .removeFromLibrary itemId userId =>
    { world with shelf := settledOr world.shelf (world.shelf.removeFromLibrary itemId userId) }
  | .putBook book => { world with books := book :: world.books.filter (·.id ≠ book.id) }

def assertReadAccess (book : Book) (userId : String) : Except Failure Unit :=
  if book.isFree then .ok ()
  else if (world.shelf.findByUserAndBook userId book.id).map LibraryItem.status = some .owned then
    .ok ()
  else
    match world.rentals.findActiveRentalForBook world.now userId book.id with
    | some _ => .ok ()
    | none => .error (.forbidden
        "You do not have access to this book. Purchase it or rent it to add it to your library.")

/-- A reader whom the file is refused can buy the book and rent it. -/
def Reacquirable (platform : Platform) (book : Book) (userId : String) : Prop :=
  (world.assertReadAccess book userId).isOk = false → ∀ paymentMethod gateway message,
    (world.purchase platform userId book.id paymentMethod gateway).1 ≠ .error (.conflict message) ∧
      ∀ durationDays, (world.rent platform userId book.id durationDays paymentMethod gateway).1 ≠
        .error (.conflict message)

/-- The reader's entry for the book names a rental whose end date has passed. -/
def Lapsed (userId bookId : String) : Prop :=
  ∃ item ∈ world.shelf.findByUserAndBook userId bookId, ∃ rentalId ∈ item.rentalId,
    ∃ rental ∈ world.rentals.findById rentalId, rental.endDate ≤ world.now

/-- A `rented` entry names the newest rental of its pair, which is active. -/
structure Lent (world : World) : Prop where
  sound : world.shelf.Sound
  dated : Dated world.now world.rentals
  rented : ∀ item ∈ world.shelf.items.rows, item.status = .rented → ∃ rental,
    item.rentalId = some rental.id ∧ rental.status = .active ∧
      world.rentals.findByUserAndBook item.userId item.bookId = some rental

end World

namespace World.Lent
variable {world : World}

theorem opening (books : List Book) (now : Int) : (World.opening books now).Lent := by
  refine ⟨.empty, ?_, ?_⟩
  · intro rental hr
    cases hr
  · intro item hm
    cases hm

/-- Rented entries stay, and so do their rentals, but for the end date. -/
theorem keep (h : world.Lent) {after : World} {test : LibraryItem → Prop}
    (keeps : Shelf.Keeps test world.shelf after.shelf) (dated : Dated after.now after.rentals)
    (lasting : ∀ item ∈ after.shelf.items.rows, ∀ rental, item.rentalId = some rental.id →
      rental.status = .active →
      world.rentals.findByUserAndBook item.userId item.bookId = some rental →
      ∃ later, later.id = rental.id ∧ later.status = .active ∧
        after.rentals.findByUserAndBook item.userId item.bookId = some later) : after.Lent := by
  refine ⟨keeps.sound h.sound, dated, fun item hm rented => ?_⟩
  obtain ⟨rental, named, active, newest⟩ := h.rented item ((keeps item).mp hm).1 rented
  obtain ⟨later, same, running, found⟩ := lasting item hm rental named active newest
  exact ⟨later, same ▸ named, running, found⟩

/-- Entries may go. -/
theorem remove (h : world.Lent) {test : LibraryItem → Prop} {shelf : Shelf}
    (keeps : Shelf.Keeps test world.shelf shelf) : ({ world with shelf } : World).Lent :=
  h.keep keeps h.dated fun _ _ rental _ active newest => ⟨rental, rfl, active, newest⟩

/-- An entry that is owned may come. -/
theorem own (h : world.Lent) {pair : String × String} {shelf : Shelf}
    (grants : Shelf.Grants pair none .owned world.shelf shelf) :
    ({ world with shelf } : World).Lent := by
  refine ⟨grants.sound (fun _ => rfl) h.sound, h.dated, fun item hm rented => ?_⟩
  cases grants with
  | held other present same kept => exact h.rented item (kept ▸ hm) rented
  | added added free unnamed rows named from_ as =>
    change item ∈ shelf.items.rows at hm
    rw [rows] at hm
    rcases List.mem_append.mp hm with old | new
    · exact h.rented item old rented
    · rw [List.mem_singleton.mp new, as] at rented
      cases rented

/-- Rentals that end take their entries with them. -/
theorem ended (h : world.Lent) {tables : RentalsTables} {events : List RentalEvent}
    (dated : Dated world.now tables) (endings : ∀ event ∈ events, event.ending.isSome)
    (others : ∀ userId bookId rental,
      world.rentals.findByUserAndBook userId bookId = some rental →
      (∀ event ∈ events, event.ending ≠ some rental.id) →
      tables.findByUserAndBook userId bookId = some rental) :
    (world.afterRentals (tables, events)).Lent := by
  have keeps := hearEndings_keeps h.sound endings
  refine h.keep keeps dated fun item hm rental named active newest => ?_
  refine ⟨rental, rfl, active, others _ _ _ newest fun event listed ending => ?_⟩
  exact ((keeps item).mp hm).2 event listed (named.trans ending.symm)

theorem returned (h : world.Lent) {id : Nat} {userId : String}
    {result : RentalsTables × List RentalEvent}
    (returns : Rentals.returnRental world.rentals world.now id userId = .ok result) :
    (world.afterRentals result).Lent := by
  have dated := h.dated.returnRental returns
  rw [returnRental_eq returns] at dated ⊢
  refine h.ended dated (fun event listed => ?_) fun _ _ rental newest spared => ?_
  · rw [List.mem_singleton.mp listed]
    rfl
  · refine RentalsTables.findByUserAndBook_update_ne newest fun same => ?_
    exact spared _ (List.mem_singleton_self _) (congrArg some same.symm)

theorem revoked (h : world.Lent) (paymentId : Nat) :
    (world.afterRentals (world.revocation paymentId)).Lent := by
  have dated := h.dated.refundCompleted world.ledger paymentId
  unfold World.revocation
  cases hr : Rentals.handleRefundCompleted world.ledger world.rentals paymentId with
  | error e => exact h
  | ok result =>
    rcases handleRefundCompleted_cases hr with rfl | ⟨rentalId, rfl⟩
    · exact h
    · rw [hr] at dated
      refine h.ended dated (fun event listed => ?_) fun _ _ rental newest spared => ?_
      · rw [List.mem_singleton.mp listed]
        rfl
      · refine RentalsTables.findByUserAndBook_update_ne newest fun same => ?_
        exact spared _ (List.mem_singleton_self _) (congrArg some same.symm)

theorem swept (h : world.Lent) : world.checkAndExpireOverdue.Lent := by
  refine h.ended (h.dated.sweep world.now) (fun event listed => ?_)
    fun userId bookId rental newest spared => ?_
  · obtain ⟨rental, -, rfl⟩ := List.mem_map.mp listed
    rfl
  · refine checkAndExpireOverdue_spares newest fun overdue listed same => ?_
    exact spared (.expired overdue.id) (List.mem_map_of_mem listed) (congrArg some same)

theorem refunded (h : world.Lent) (id : Nat) : (world.onRefundCompleted id).Lent := by
  have revoked := h.revoked id
  let after := world.afterRentals (world.revocation id)
  have same : (world.onRefundCompleted id) = { after with
      shelf := settledOr after.shelf (Library.handleRefundCompleted world.ledger after.shelf id) } :=
    rfl
  rw [same]
  cases found : world.ledger.findById id with
  | none =>
    simp only [Library.handleRefundCompleted, found, settledOr]
    exact revoked
  | some payment =>
    cases purchase : payment.pairFor "purchase" with
    | none =>
      rw [handleRefundCompleted_other found purchase]
      exact revoked
    | some pair =>
      obtain ⟨removed, he, keeps⟩ := handleRefundCompleted_keeps revoked.sound found purchase
      rw [he]
      exact revoked.remove keeps

/-- A rental that was created is the newest of its pair, and no entry was for it. -/
theorem created (h : world.Lent)
    (earlier : ∀ row ∈ world.rentals.rentals.rows, row.createdAt < world.now)
    {userId bookId : String} {days : Rat} (free :
      (world.rentals.findByUserAndBook userId bookId).map Rental.status ≠ some .active) :
    (world.afterRentals ((world.rentals.create world.now userId bookId days).2,
      [.created world.rentals.rentals.next userId bookId])).Lent := by
  obtain ⟨shelf, he, grants⟩ := Shelf.handleRentalCreated_grants world.shelf
    world.rentals.rentals.next userId bookId
  have heard : hearRentalEvents world.shelf [.created world.rentals.rentals.next userId bookId] =
      shelf := by
    simp only [hearRentalEvents, List.foldl_cons, List.foldl_nil, Shelf.handleRentalEvent, he,
      settledOr]
  let tables := (world.rentals.create world.now userId bookId days).2
  have dated : Dated world.now tables := by
    intro rental hr
    rcases List.mem_append.mp hr with old | new
    · exact h.dated rental old
    · exact (congrArg Rental.createdAt (List.mem_singleton.mp new)).le
  -- an entry of the pair would name its newest rental, and that one would be active
  have lasting : ∀ item ∈ world.shelf.items.rows, item.status = .rented → ∃ rental,
      item.rentalId = some rental.id ∧ rental.status = .active ∧
        tables.findByUserAndBook item.userId item.bookId = some rental := by
    intro item hm rented
    obtain ⟨rental, named, active, newest⟩ := h.rented item hm rented
    refine ⟨rental, named, active, ?_⟩
    by_cases same : (item.userId, item.bookId) = (userId, bookId)
    · obtain ⟨rfl, rfl⟩ := Prod.mk.inj same
      exact absurd (by rw [newest, Option.map_some, active]) free
    · exact (RentalsTables.findByUserAndBook_create_ne same).trans newest
  simp only [World.afterRentals, heard]
  refine ⟨grants.sound (by simp) h.sound, dated, fun item hm rented => ?_⟩
  cases grants with
  | held other present same kept => exact lasting item (kept ▸ hm) rented
  | added added free unnamed rows named from_ as =>
    change item ∈ shelf.items.rows at hm
    rw [rows] at hm
    rcases List.mem_append.mp hm with old | new
    · exact lasting item old rented
    · obtain rfl := List.mem_singleton.mp new
      obtain ⟨rfl, rfl⟩ := Prod.mk.inj named
      exact ⟨(world.rentals.create world.now item.userId item.bookId days).1, from_, rfl,
        findByUserAndBook_create earlier⟩

theorem completed (h : world.Lent)
    (earlier : ∀ row ∈ world.rentals.rentals.rows, row.createdAt < world.now) (id : Nat) :
    (world.onPaymentCompleted id).Lent := by
  have rented : (world.afterRentals (world.completion id)).Lent := by
    have dated := h.dated.paymentCompleted world.ledger id
    unfold World.completion
    cases hc : Rentals.handlePaymentCompleted world.ledger world.rentals world.now id with
    | error e => exact h
    | ok result =>
      rw [hc] at dated
      rcases handlePaymentCompleted_cases hc with rfl | ⟨rentalId, endDate, count, extended, rfl, rows⟩ |
        ⟨userId, bookId, days, free, rfl⟩
      · exact h
      · refine h.keep (.all fun _ _ => trivial) dated fun item _ rental _ active newest => ?_
        have found : extended.findByUserAndBook item.userId item.bookId = some (if
            rental.id = rentalId then { rental with endDate, extendedCount := count } else rental) :=
          (rows _ _).trans ((RentalsTables.findByUserAndBook_update ..).trans
            (congrArg _ newest))
        by_cases paid : rental.id = rentalId
        · rw [if_pos paid] at found
          exact ⟨{ rental with endDate, extendedCount := count }, rfl, active, found⟩
        · rw [if_neg paid] at found
          exact ⟨rental, rfl, active, found⟩
      · exact h.created earlier free
  let after := world.afterRentals (world.completion id)
  have same : world.onPaymentCompleted id = { after with
      shelf := settledOr after.shelf (Library.handlePaymentCompleted world.ledger after.shelf id) } :=
    rfl
  rw [same]
  cases found : world.ledger.findById id with
  | none =>
    simp only [Library.handlePaymentCompleted, found, settledOr]
    exact rented
  | some payment =>
    cases purchase : payment.pairFor "purchase" with
    | none =>
      rw [handlePaymentCompleted_other found purchase]
      exact rented
    | some pair =>
      obtain ⟨granted, he, grants⟩ := handlePaymentCompleted_grants after.shelf found purchase
      rw [he]
      exact rented.own grants

theorem effect {request : Request} {after : World} (h : world.Lent)
    (earlier : ∀ row ∈ world.rentals.rentals.rows, row.createdAt < world.now)
    (effect : Effect world request after) : after.Lent := by
  cases effect with
  | refused => exact h
  | opened request userId metadata ledger => exact ⟨h.sound, h.dated, h.rented⟩
  | reported id status ids ledger => exact ⟨h.sound, h.dated, h.rented⟩
  | completed id ids ledger =>
    have paid : ({ world with ledger } : World).Lent := ⟨h.sound, h.dated, h.rented⟩
    exact paid.completed earlier id
  | unsettled input outcome result answer ledger => exact ⟨h.sound, h.dated, h.rented⟩
  | refunded input outcome answer ledger =>
    have repaid : ({ world with ledger } : World).Lent := ⟨h.sound, h.dated, h.rented⟩
    exact repaid.refunded input.paymentId
  | returned id userId result returns => exact h.returned returns
  | swept => exact h.swept

theorem later (h : world.Lent) (elapsed : Nat) : (world.later elapsed).Lent := by
  refine ⟨h.sound, h.dated.later ?_, h.rented⟩
  simp only [World.later]
  omega

theorem later_earlier (h : world.Lent) (elapsed : Nat) :
    ∀ row ∈ (world.later elapsed).rentals.rentals.rows,
      row.createdAt < (world.later elapsed).now := by
  intro row hr
  have created := h.dated row hr
  simp only [World.later]
  omega

theorem claimed (h : world.Lent) {userId bookId : String} {item : LibraryItem} {shelf : Shelf}
    (claims : world.claimFreeBook userId bookId = .ok (item, shelf)) :
    ({ world with shelf } : World).Lent := by
  unfold World.claimFreeBook at claims
  split at claims
  · cases claims
  · split at claims
    · cases claims
    · split at claims
      · cases claims
      · unfold Shelf.addToLibrary at claims
        cases free : world.shelf.findByUserAndBook userId bookId with
        | some existing => simp [free] at claims
        | none =>
          simp only [free] at claims
          obtain rfl := congrArg Prod.snd (Except.ok.inj claims)
          exact h.own (Shelf.grant_grants free (by simp))

theorem removed (h : world.Lent) {itemId : Nat} {userId : String} {shelf : Shelf}
    (removes : world.shelf.removeFromLibrary itemId userId = .ok shelf) :
    ({ world with shelf } : World).Lent := by
  unfold Shelf.removeFromLibrary at removes
  cases found : world.shelf.findById itemId with
  | none => simp [found] at removes
  | some item =>
    obtain ⟨listed, rfl⟩ := Store.Table.find?_eq_some_iff.mp found
    simp only [found] at removes
    split at removes
    · cases removes
    · obtain rfl := Except.ok.inj removes
      exact h.remove (Shelf.delete_keeps listed _)

theorem visit (platform : Platform) (h : world.Lent) (visit : Visit) :
    (world.visit platform visit).Lent := by
  cases visit with
  | request elapsed request =>
    exact (h.later elapsed).effect (h.later_earlier elapsed) (handle_effect platform _ request)
  | wait elapsed => exact h.later elapsed
  | claimFreeBook userId bookId =>
    simp only [World.visit]
    cases claims : world.claimFreeBook userId bookId with
    | error e => exact h
    | ok claimed => exact h.claimed claims
  | removeFromLibrary itemId userId =>
    simp only [World.visit]
    cases removes : world.shelf.removeFromLibrary itemId userId with
    | error e => exact h
    | ok shelf => exact h.removed removes
  | putBook book => exact ⟨h.sound, h.dated, h.rented⟩

end World.Lent

namespace World
variable {world : World} {platform : Platform} {book : Book} {userId message : String}
  {gateway : Except Failure String} {paymentMethod : Option String}

theorem checkout_conflict {priced : Except Failure (Int × Json)}
    (h : (world.checkout platform userId gateway priced).1 = .error (.conflict message)) :
    priced = .error (.conflict message) := by
  unfold checkout at h
  cases priced with
  | error e => exact congrArg Except.error (Except.error.inj h)
  | ok charge =>
    exact absurd h (paymobInitializePayment_ne_conflict platform world.ledger userId charge.1
      RENTAL_CURRENCY charge.2 gateway message)

theorem purchase_conflict (sells : ∀ action freeMessage,
      world.bookForSale userId book.id action freeMessage = .ok book)
    (h : (world.purchase platform userId book.id paymentMethod gateway).1 =
      .error (.conflict message)) :
    (world.shelf.findByUserAndBook userId book.id).isSome := by
  have refused := checkout_conflict h
  cases found : world.shelf.findByUserAndBook userId book.id with
  | some item => rfl
  | none => simp [sells, found, bind, Except.bind, pure, Except.pure] at refused

theorem rent_conflict {days : Int} (sells : ∀ action freeMessage,
      world.bookForSale userId book.id action freeMessage = .ok book)
    (h : (world.rent platform userId book.id days paymentMethod gateway).1 =
      .error (.conflict message)) :
    (world.shelf.findByUserAndBook userId book.id).isSome := by
  have refused := checkout_conflict h
  cases found : world.shelf.findByUserAndBook userId book.id with
  | some item => rfl
  | none =>
    by_cases offered : days ∈ RENTAL_DURATION_DAYS
    · simp [sells, found, offered, bind, Except.bind, pure, Except.pure] at refused
    · simp [sells, offered, bind, Except.bind, throw, throwThe, MonadExceptOf.throw,
        Failure.badRequest, Failure.conflict] at refused

/-- An entry that is there is in the way of a purchase. -/
theorem purchase_refused (platform : Platform) (paymentMethod : Option String)
    (gateway : Except Failure String) (sells : ∀ action freeMessage,
      world.bookForSale userId book.id action freeMessage = .ok book)
    (held : (world.shelf.findByUserAndBook userId book.id).isSome) :
    ∃ message, (world.purchase platform userId book.id paymentMethod gateway).1 =
      .error (.conflict message) := by
  obtain ⟨item, found⟩ := Option.isSome_iff_exists.mp held
  simp [purchase, checkout, alreadyHeld, sells, found, bind, Except.bind, throw, throwThe,
    MonadExceptOf.throw]

/-- What refuses a reader with an entry is a rental that is past its end date. -/
theorem Lent.refused_iff (h : world.Lent) {item : LibraryItem} (paid : book.isFree = false)
    (found : world.shelf.findByUserAndBook userId book.id = some item) :
    (world.assertReadAccess book userId).isOk = false ↔ world.Lapsed userId book.id := by
  obtain ⟨listed, pair⟩ := Shelf.findByUserAndBook_some found
  obtain ⟨rfl, same⟩ := Prod.mk.inj pair
  simp only [assertReadAccess, paid, found, Lapsed, Option.map_some, Option.some.injEq,
    Option.mem_some_iff, exists_eq_left', Bool.false_eq_true, if_false]
  cases status : item.status with
  | owned =>
    refine iff_of_false (by rintro ⟨⟩) ?_
    rintro ⟨rentalId, named, -⟩
    rw [h.sound.owned item listed status] at named
    cases named
  | rented =>
    obtain ⟨rental, named, active, newest⟩ := h.rented item listed status
    rw [same] at newest
    obtain ⟨byId, -, -, live⟩ := RentalsTables.findByUserAndBook_spec newest
    simp only [reduceCtorEq, if_false, named, Option.mem_some_iff, exists_eq_left', byId,
      RentalsTables.findActiveRentalForBook, newest, live, active]
    by_cases expired : rental.endDate ≤ world.now
    · simp [expired, Except.isOk, Except.toBool]
    · simp [expired, Except.isOk, Except.toBool]

theorem reacquirable_iff_not_lapsed (h : world.Lent) (sells : ∀ action freeMessage,
      world.bookForSale userId book.id action freeMessage = .ok book) (paid : book.isFree = false) :
    world.Reacquirable platform book userId ↔ ¬ world.Lapsed userId book.id := by
  cases found : world.shelf.findByUserAndBook userId book.id with
  | none =>
    refine iff_of_true (fun _ _ _ _ => ⟨fun conflict => ?_, fun _ conflict => ?_⟩) ?_
    · simpa [found] using purchase_conflict sells conflict
    · simpa [found] using rent_conflict sells conflict
    · rintro ⟨item, named, -⟩
      rw [found] at named
      cases named
  | some item =>
    rw [← h.refused_iff paid found]
    constructor
    · intro acquires refused
      obtain ⟨message, conflict⟩ := purchase_refused platform none (.ok "") sells (found ▸ rfl)
      exact (acquires refused none (.ok "") message).1 conflict
    · exact fun read refused => absurd refused read

end World

/-- Whoever is refused a book can buy or rent it, unless a lapsed rental is on the shelf. -/
theorem reacquirable_iff (platform : Platform) (books : List Book) (now : Int)
    (visits : List Visit) (book : Book) (userId : String) :
    let world := Trace.run (World.visit platform) (World.opening books now) visits
    world.books.find? (·.id = book.id) = some book → book.deletedAt = none →
    book.isFree = false → book.ownerId ≠ some userId →
    (world.Reacquirable platform book userId ↔ ¬ world.Lapsed userId book.id) := by
  intro world listed published paid foreign
  have lent : world.Lent := Trace.run_invariant_always
    (fun world visit h => h.visit platform visit) (World.Lent.opening books now) visits
  refine World.reacquirable_iff_not_lapsed lent (fun action freeMessage => ?_) paid
  simp [World.bookForSale, listed, published, foreign, paid]

/-- A rental of a day, one day in. -/
def borrowing : List Visit := [.request 0 (rentNovel 1), .request 0 (.report 0 .completed {})]

theorem reacquirable_iff_borrowing :
    (Trace.run (World.visit .plain) (World.opening [novel] 0) borrowing).Reacquirable .plain novel
        "reader" ↔
      ¬ (Trace.run (World.visit .plain) (World.opening [novel] 0) borrowing).Lapsed "reader"
        "novel" :=
  reacquirable_iff .plain [novel] 0 borrowing novel "reader" (by decide) rfl rfl
    (by decide)

/-- Two days later the reader can neither read the book nor buy it. -/
theorem reacquirable_lapsed :
    let world := Trace.run (World.visit .plain) (World.opening [novel] 0)
      (borrowing ++ [.wait 172800000])
    world.books.find? (·.id = novel.id) = some novel ∧ novel.deletedAt = none ∧
      novel.isFree = false ∧ novel.ownerId ≠ some "reader" ∧
      ¬ world.Reacquirable .plain novel "reader" := by
  refine ⟨by decide, rfl, rfl, by decide, fun acquires => ?_⟩
  have refused := (acquires (by decide) none (.ok "order")
    "You already have this book on rental").1
  revert refused
  decide

end Entitlements
