import Hakawi.Entitlements.Overlap
import Hakawi.Entitlements.Reacquisition

/-!
# One charge for one entitlement

A checkout is refused while the shelf has an entry of the reader and the book. The
entry comes with the completion of a payment, so checkouts that were opened before
any of them completed all pass, and the listeners give the later ones nothing.
-/

namespace Entitlements

open Common Payments Rentals Library Effects

/-- What one reader does about one book, and what the gateway settles. -/
inductive Call where
  | purchase (paymentMethod : Option String) (gateway : Except Failure String)
  | rent (durationDays : Int) (paymentMethod : Option String) (gateway : Except Failure String)
  | settle (paymentId : Nat) (ids : PaymentPatch)

def Call.request (pair : String × String) : Call → Request
  | .purchase paymentMethod gateway => .purchase pair.1 pair.2 paymentMethod gateway
  | .rent durationDays paymentMethod gateway =>
    .rent pair.1 pair.2 durationDays paymentMethod gateway
  | .settle paymentId ids => .report paymentId .completed ids

/-- The payment is for the reader and the book, to own it or to rent it. -/
def Sells (pair : String × String) (payment : Payment) : Prop :=
  payment.pairFor "purchase" = some pair ∨ payment.pairFor "rental" = some pair

instance (pair : String × String) (payment : Payment) : Decidable (Sells pair payment) :=
  inferInstanceAs (Decidable (_ ∨ _))

theorem purchase_ne_rental {payment : Payment} {pair other : String × String}
    (purchase : payment.pairFor "purchase" = some pair) :
    payment.pairFor "rental" ≠ some other := by
  intro rental
  have type := (Payment.pairFor_eq_some.mp rental).1
  rw [(Payment.pairFor_eq_some.mp purchase).1] at type
  exact absurd (Option.some.inj type) (by decide)

instance (world : World) (userId bookId : String) (days : Rat) :
    Decidable (Granted world userId bookId days) :=
  decidable_of_iff (∃ rental ∈ world.rentals.findActiveRentalForBook world.now userId bookId,
    addDays world.now days ≤ rental.endDate) Iff.rfl

namespace World
variable (platform : Platform) (pair : String × String) (world : World)

/-- A call arrives after some time. -/
def call (world : World) (turn : Nat × Call) : World :=
  world.step platform (turn.1, turn.2.request pair)

/-- The shelf has an entry of the pair with this status. -/
def Holds (status : LibraryStatus) : Prop :=
  ∃ item ∈ world.shelf.items.rows, item.pair = pair ∧ item.status = status

instance (status : LibraryStatus) : Decidable (world.Holds pair status) :=
  inferInstanceAs (Decidable (∃ item ∈ world.shelf.items.rows, _))

/-- The reader has what the payment is for: the book, or a rental of it that runs for as
long as is paid from now on. -/
def Entitles (payment : Payment) : Prop :=
  if payment.pairFor "purchase" = some pair then world.Holds pair .owned
  else world.Holds pair .rented ∧
    ∃ days ∈ payment.metaNumber "durationDays", Granted world pair.1 pair.2 days

instance (payment : Payment) : Decidable (world.Entitles pair payment) :=
  inferInstanceAs (Decidable (if payment.pairFor "purchase" = some pair then _ else _ ∧
    ∃ days ∈ payment.metaNumber "durationDays", Granted world pair.1 pair.2 days))

/-- A payment of the pair has completed. -/
def Charged : Prop :=
  ∃ payment ∈ world.ledger.payments.rows, Sells pair payment ∧ payment.status = .completed

instance : Decidable (world.Charged pair) :=
  inferInstanceAs (Decidable (∃ payment ∈ world.ledger.payments.rows, _))

/-- At most one purchase of the pair has completed. -/
def BoughtOnce : Prop :=
  ∀ first ∈ world.ledger.payments.rows, ∀ second ∈ world.ledger.payments.rows,
    first.pairFor "purchase" = some pair → first.status = .completed →
    second.pairFor "purchase" = some pair → second.status = .completed → first.id = second.id

instance : Decidable (world.BoughtOnce pair) :=
  inferInstanceAs (Decidable (∀ first ∈ world.ledger.payments.rows, _))

/-- A payment that completes gives the reader what the reader did not have. -/
def Gains : Nat × Call → Prop
  | (elapsed, .settle paymentId ids) =>
    ((world.later elapsed).ledger.complete paymentId ids).isOk = true →
      ∀ payment ∈ world.ledger.findById paymentId,
        ¬ (world.later elapsed).Entitles pair payment ∧
          (world.call platform pair (elapsed, .settle paymentId ids)).Entitles pair payment
  | _ => True

instance : (turn : Nat × Call) → Decidable (world.Gains platform pair turn)
  | (_, .settle ..) => inferInstanceAs (Decidable (_ → ∀ payment ∈ world.ledger.findById _, _))
  | (_, .purchase ..) => .isTrue trivial
  | (_, .rent ..) => .isTrue trivial

/-- A payment completes only while no other payment of the pair has. -/
def Uncharged : Nat × Call → Prop
  | (_, .settle paymentId ids) =>
    (world.ledger.complete paymentId ids).isOk = true → ¬ world.Charged pair
  | _ => True

instance : (turn : Nat × Call) → Decidable (world.Uncharged pair turn)
  | (_, .settle ..) => inferInstanceAs (Decidable (_ → _))
  | (_, .purchase ..) => .isTrue trivial
  | (_, .rent ..) => .isTrue trivial

/-- What holds of every world that the calls of one reader for one book lead to. -/
structure Selling : Prop where
  named : ∀ book ∈ world.books, book.id ≠ ""
  lent : world.Lent
  offered : Offered world.ledger
  sells : ∀ id payment, world.ledger.findById id = some payment → Sells pair payment
  held : world.Charged pair → ∃ item ∈ world.shelf.items.rows, item.pair = pair
  untouched : ¬ world.Charged pair → world.shelf.items.rows = [] ∧ world.rentals.rentals.rows = []

/-- A checkout is refused, or opens a payment of the pair. -/
def Checkout (world after : World) : Prop :=
  after = world ∨ ∃ metadata ledger, after = { world with ledger } ∧ Offer metadata ∧
    Opens pair.1 metadata world.ledger ledger ∧ ∀ id payment,
      ledger.findById id = some payment → world.ledger.findById id = some payment ∨
        (payment.status ≠ .completed ∧ Sells pair payment)

section Checkouts
variable {platform pair world} {gateway : Except Failure String}

theorem pairFor_of_metadata {payment : Payment} {metadata : Json} {type : String}
    (named : pair.2 ≠ "") (reader : payment.userId = pair.1)
    (purpose : payment.metadata = some metadata) (typed : metadata.stringField? "type" = some type)
    (book : metadata.stringField? "bookId" = some pair.2) : payment.pairFor type = some pair := by
  refine Payment.pairFor_eq_some.mpr ⟨?_, ?_, reader⟩
  · simp only [Payment.metaString, purpose, Option.bind_some, typed]
  · simp [Payment.metaBookId, Payment.metaString, purpose, book, named]

theorem checkout_opens {priced : Except Failure (Int × Json)}
    (sold : ∀ amount metadata, priced = .ok (amount, metadata) → Offer metadata ∧
      ∀ payment : Payment, payment.userId = pair.1 → payment.metadata = some metadata →
        Sells pair payment) :
    Checkout pair world (world.checkout platform pair.1 gateway priced).2 := by
  unfold checkout
  cases priced with
  | error e => exact Or.inl rfl
  | ok charge =>
    obtain ⟨amount, metadata⟩ := charge
    obtain ⟨offer, sells⟩ := sold amount metadata rfl
    have opens : Opens pair.1 metadata world.ledger (paymobInitializePayment platform world.ledger
        pair.1 amount RENTAL_CURRENCY metadata gateway).2 := paymobInitializePayment_opens ..
    refine Or.inr ⟨metadata, _, rfl, offer, opens, fun id payment found => ?_⟩
    refine (opens.payments id payment found).imp_right fun new => ?_
    exact ⟨new.1, sells payment new.2.1 new.2.2⟩

theorem bookForSale_named {userId bookId action freeMessage : String} {book : Book}
    (named : ∀ book ∈ world.books, book.id ≠ "")
    (h : world.bookForSale userId bookId action freeMessage = .ok book) : bookId ≠ "" := by
  unfold bookForSale at h
  cases found : world.books.find? (·.id = bookId) with
  | none => simp [found] at h
  | some listed =>
    have same : listed.id = bookId := by simpa using List.find?_some found
    exact same ▸ named listed (List.mem_of_find?_eq_some found)

theorem purchase_opens {paymentMethod : Option String}
    (named : ∀ book ∈ world.books, book.id ≠ "") :
    Checkout pair world (world.purchase platform pair.1 pair.2 paymentMethod gateway).2 := by
  unfold purchase
  refine checkout_opens fun amount metadata h => ?_
  cases hb : world.bookForSale pair.1 pair.2 "purchase"
      "This book is free, no purchase needed" with
  | error e => simp [hb, bind, Except.bind] at h
  | ok book =>
    cases hf : world.shelf.findByUserAndBook pair.1 pair.2 with
    | some existing => simp [hb, hf, bind, Except.bind, throw, throwThe, MonadExceptOf.throw] at h
    | none =>
      simp only [hb, hf, bind, Except.bind, pure, Except.pure, Except.ok.injEq,
        Prod.mk.injEq] at h
      obtain ⟨-, rfl⟩ := h
      refine ⟨offer_of_type rfl (by decide), fun payment reader purpose => Or.inl ?_⟩
      exact pairFor_of_metadata (bookForSale_named named hb) reader purpose rfl rfl

theorem rent_opens {durationDays : Int} {paymentMethod : Option String}
    (named : ∀ book ∈ world.books, book.id ≠ "") :
    Checkout pair world
      (world.rent platform pair.1 pair.2 durationDays paymentMethod gateway).2 := by
  unfold rent
  refine checkout_opens fun amount metadata h => ?_
  cases hb : world.bookForSale pair.1 pair.2 "rent"
      "This book is free. Add it to your library instead of renting it." with
  | error e => simp [hb, bind, Except.bind] at h
  | ok book =>
    by_cases hd : durationDays ∈ RENTAL_DURATION_DAYS
    · cases hf : world.shelf.findByUserAndBook pair.1 pair.2 with
      | some existing =>
        simp [hb, hf, hd, bind, Except.bind, throw, throwThe, MonadExceptOf.throw] at h
      | none =>
        simp only [hb, hf, hd, not_true_eq_false, if_false, bind, Except.bind, pure, Except.pure,
          Except.ok.injEq, Prod.mk.injEq] at h
        obtain ⟨-, rfl⟩ := h
        refine ⟨fun _ => ⟨durationDays, hd, rfl⟩, fun payment reader purpose => Or.inr ?_⟩
        exact pairFor_of_metadata (bookForSale_named named hb) reader purpose rfl rfl
    · simp [hb, hd, bind, Except.bind, throw, throwThe, MonadExceptOf.throw] at h

end Checkouts

section Completion
variable {pair world} {id : Nat} {payment : Payment}

theorem entitles_purchase (sale : payment.pairFor "purchase" = some pair) :
    world.Entitles pair payment ↔ world.Holds pair .owned := by
  rw [Entitles, if_pos sale]

theorem entitles_rental (sale : payment.pairFor "rental" = some pair) :
    world.Entitles pair payment ↔ world.Holds pair .rented ∧
      ∃ days ∈ payment.metaNumber "durationDays", Granted world pair.1 pair.2 days := by
  rw [Entitles, if_neg fun purchase => purchase_ne_rental purchase sale]

/-- A rental that completes changes nothing while the pair's newest one is active; else
it finds an entry, or adds a rented one. -/
theorem onPaymentCompleted_rents {days : Rat} (found : world.ledger.findById id = some payment)
    (sale : payment.pairFor "rental" = some pair)
    (usable : metaDays payment "durationDays" = some days) :
    ((world.rentals.findByUserAndBook pair.1 pair.2).map Rental.status = some .active ∧
        world.onPaymentCompleted id = world) ∨
      ((world.rentals.findByUserAndBook pair.1 pair.2).map Rental.status ≠ some .active ∧
        Shelf.Grants pair (some world.rentals.rentals.next) .rented world.shelf
          (world.onPaymentCompleted id).shelf) := by
  have completion : world.completion id = grantRental world.rentals world.now payment := by
    rw [World.completion, handlePaymentCompleted_rental found (Payment.pairFor_eq_some.mp sale).1]
    rfl
  have none_ : payment.pairFor "purchase" = none := by
    have other : payment.metaString "type" ≠ some "purchase" := by
      rw [(Payment.pairFor_eq_some.mp sale).1]
      decide
    rw [Payment.pairFor, if_neg other]
  have silent : world.onPaymentCompleted id = world.afterRentals (world.completion id) := by
    unfold onPaymentCompleted
    simp only [afterRentals, handlePaymentCompleted_other found none_, settledOr]
  rw [silent, completion]
  rcases grantRental_cases world.rentals world.now sale usable with ⟨active, kept⟩ | ⟨free, created⟩
  · refine Or.inl ⟨active, ?_⟩
    rw [kept]
    rfl
  · obtain ⟨shelf, he, grants⟩ := Shelf.handleRentalCreated_grants world.shelf
      world.rentals.rentals.next pair.1 pair.2
    refine Or.inr ⟨free, ?_⟩
    rw [created]
    simpa only [afterRentals, hearRentalEvents, List.foldl_cons, List.foldl_nil,
      Shelf.handleRentalEvent, he, settledOr] using grants

theorem holds_of_added {status : LibraryStatus} {rentalId : Option Nat} {before after : Shelf}
    (empty : before.items.rows = []) (grants : Shelf.Grants pair rentalId status before after) :
    ({ world with shelf := after } : World).Holds pair status := by
  cases grants with
  | held item present => rw [empty] at present; cases present
  | added item free unnamed rows named from_ as =>
    exact ⟨item, rows ▸ List.mem_append_right _ List.mem_cons_self, named, as⟩

variable {ids : PaymentPatch} {ledger : Ledger}

/-- The first payment of a pair that completes gives what it is for. -/
theorem entitles_first (offered : Offered world.ledger)
    (shelf : world.shelf.items.rows = []) (rentals : world.rentals.rentals.rows = [])
    (found : world.ledger.findById id = some payment) (sells : Sells pair payment)
    (completes : world.ledger.complete id ids = .ok ledger) :
    (world.completePayment id ids).Entitles pair payment := by
  obtain ⟨now, foundNow, same⟩ := (changeStatus_continues completes).kept id payment found
  let paid : World := { world with ledger }
  have foundPaid : paid.ledger.findById id = some now := foundNow
  have after : world.completePayment id ids = paid.onPaymentCompleted id :=
    completePayment_eq completes
  rcases sells with purchase | rental
  · rw [entitles_purchase purchase, after]
    exact holds_of_added shelf
      (onPaymentCompleted_grants foundPaid ((same.pairFor _).trans purchase))
  · obtain ⟨type, book, reader⟩ := Payment.pairFor_eq_some.mp rental
    obtain ⟨days, listed, duration⟩ := offered id payment found type
    have positive : (1 : Rat) ≤ days := by exact_mod_cast duration_pos listed
    have rents := (same.pairFor _).trans rental
    obtain ⟨paidDays, usable⟩ := Chronicle.metaDays_offered
      (offered.continues (changeStatus_continues completes)) foundNow rents
    have none_ : world.rentals.findByUserAndBook pair.1 pair.2 = none := by
      simp [RentalsTables.findByUserAndBook, RentalsTables.ofPair, rentals, newest]
    rw [entitles_rental rental]
    constructor
    · rcases onPaymentCompleted_rents foundPaid rents usable with ⟨active, -⟩ | ⟨-, grants⟩
      · rw [none_] at active
        cases active
      · exact after ▸ holds_of_added shelf grants
    · refine ⟨days, duration, ?_⟩
      have granted := (granted_iff_not_heldUp found ⟨type, book, duration⟩ positive
        (by rw [rentals]; exact fun _ => by simp) completes).mpr
      rw [reader] at granted
      refine granted ?_
      rintro ⟨newest, listed, -⟩
      rw [none_] at listed
      cases listed

/-- With an entry of the pair on the shelf, a payment that completes gives nothing. -/
theorem entitles_again (lent : world.Lent) (offered : Offered world.ledger)
    {item : LibraryItem} (listed : item ∈ world.shelf.items.rows) (named : item.pair = pair)
    (found : world.ledger.findById id = some payment) (sells : Sells pair payment)
    (completes : world.ledger.complete id ids = .ok ledger)
    (entitled : (world.completePayment id ids).Entitles pair payment) :
    world.Entitles pair payment := by
  obtain ⟨now, foundNow, same⟩ := (changeStatus_continues completes).kept id payment found
  let paid : World := { world with ledger }
  have foundPaid : paid.ledger.findById id = some now := foundNow
  rw [completePayment_eq completes] at entitled
  rcases sells with purchase | rental
  · rw [entitles_purchase purchase] at entitled ⊢
    cases onPaymentCompleted_grants foundPaid ((same.pairFor _).trans purchase) with
    | held other present same kept =>
      rw [Holds, kept] at entitled
      exact entitled
    | added other free => exact absurd named (free item listed)
  · have rents := (same.pairFor _).trans rental
    obtain ⟨days, usable⟩ := Chronicle.metaDays_offered
      (offered.continues (changeStatus_continues completes)) foundNow rents
    rcases onPaymentCompleted_rents foundPaid rents usable with ⟨-, kept⟩ | ⟨free, grants⟩
    · rw [kept] at entitled
      exact entitled
    · rw [entitles_rental rental] at entitled
      obtain ⟨⟨rented, present, pair_, status⟩, -⟩ := entitled
      cases grants with
      | held other _ _ kept =>
        rw [kept] at present
        obtain ⟨newest, -, active, first⟩ := lent.rented rented present status
        subst pair_
        exact absurd ((congrArg (Option.map Rental.status) first).trans (congrArg some active)) free
      | added other unshelved => exact absurd named (unshelved item listed)

end Completion

namespace Selling
variable {pair world} {platform : Platform}

theorem opening {books : List Book} (named : ∀ book ∈ books, book.id ≠ "") (now : Int) :
    (World.opening books now).Selling pair := by
  refine ⟨named, .opening books now, (booked_run .plain books now []).offered,
    fun _ _ => by rintro ⟨⟩, ?_, fun _ => ⟨rfl, rfl⟩⟩
  rintro ⟨payment, recorded, -⟩
  cases recorded

theorem later (h : world.Selling pair) (elapsed : Nat) : (world.later elapsed).Selling pair :=
  ⟨h.named, h.lent.later elapsed, h.offered, h.sells, h.held, h.untouched⟩

theorem checkout {after : World} (h : world.Selling pair) (opened : Checkout pair world after) :
    after.Selling pair := by
  rcases opened with rfl | ⟨metadata, ledger, rfl, offer, opens, new⟩
  · exact h
  · have charged : ({ world with ledger } : World).Charged pair ↔ world.Charged pair := by
      constructor
      · rintro ⟨payment, recorded, sells, completed⟩
        rcases new payment.id payment (Store.Table.find?_eq_some_iff.mpr ⟨recorded, rfl⟩) with
          before | ⟨uncompleted, -⟩
        · exact ⟨payment, Store.Table.mem_of_find? before, sells, completed⟩
        · exact absurd completed uncompleted
      · rintro ⟨payment, recorded, sells, completed⟩
        have found := opens.kept payment.id payment
          (Store.Table.find?_eq_some_iff.mpr ⟨recorded, rfl⟩)
        exact ⟨payment, Store.Table.mem_of_find? found, sells, completed⟩
    refine ⟨h.named, ⟨h.lent.sound, h.lent.dated, h.lent.rented⟩, h.offered.opens opens offer,
      fun id payment found => ?_, fun paid => h.held (charged.mp paid),
      fun free => h.untouched fun paid => free (charged.mpr paid)⟩
    rcases new id payment found with before | ⟨-, sells⟩
    · exact h.sells id payment before
    · exact sells

theorem settled {id : Nat} {ids : PaymentPatch} {ledger : Ledger} (h : world.Selling pair)
    (earlier : ∀ row ∈ world.rentals.rentals.rows, row.createdAt < world.now)
    (completes : world.ledger.complete id ids = .ok ledger) :
    (world.completePayment id ids).Selling pair := by
  have continues := changeStatus_continues completes
  obtain ⟨payment, found, -⟩ := changeStatus_ok completes
  let paid : World := { world with ledger }
  have lent : paid.Lent := ⟨h.lent.sound, h.lent.dated, h.lent.rented⟩
  have after : world.completePayment id ids = paid.onPaymentCompleted id :=
    completePayment_eq completes
  refine ⟨?_, ?_, ?_, ?_, fun _ => ?_, fun free => ?_⟩
  · rw [after]
    exact h.named
  · rw [after]
    exact lent.completed earlier id
  · rw [after]
    exact h.offered.continues continues
  · intro other now foundNow
    rw [after] at foundNow
    obtain ⟨before, foundBefore, same⟩ := continues.from_ other now foundNow
    have sells := h.sells other before foundBefore
    rwa [Sells, ← same.pairFor, ← same.pairFor] at sells
  · by_cases charged : world.Charged pair
    · obtain ⟨item, listed, named⟩ := h.held charged
      rw [after]
      refine ⟨item, (onPaymentCompleted_adds lent.sound id).2.1 item ?_, named⟩
      exact completion_keeps lent.sound id item listed
    · obtain ⟨shelf, rentals⟩ := h.untouched charged
      have entitled :=
        entitles_first h.offered shelf rentals found (h.sells id payment found) completes
      rcases h.sells id payment found with purchase | rental
      · obtain ⟨item, listed, named, -⟩ := (entitles_purchase purchase).mp entitled
        exact ⟨item, listed, named⟩
      · obtain ⟨⟨item, listed, named, -⟩, -⟩ := (entitles_rental rental).mp entitled
        exact ⟨item, listed, named⟩
  · refine absurd ?_ free
    have foundNow := changeStatus_findById completes id
    rw [if_pos rfl, found, Option.map_some] at foundNow
    obtain ⟨before, foundBefore, same⟩ := continues.from_ id _ foundNow
    have sells := h.sells id before foundBefore
    rw [Sells, ← same.pairFor, ← same.pairFor] at sells
    rw [after]
    exact ⟨_, Store.Table.mem_of_find? foundNow, sells, rfl⟩

theorem call (h : world.Selling pair) (turn : Nat × Call) :
    (world.call platform pair turn).Selling pair := by
  obtain ⟨elapsed, call⟩ := turn
  have now := h.later elapsed
  cases call with
  | purchase paymentMethod gateway => exact now.checkout (purchase_opens now.named)
  | rent durationDays paymentMethod gateway => exact now.checkout (rent_opens now.named)
  | settle id ids =>
    have same : world.call platform pair (elapsed, .settle id ids) =
        (world.later elapsed).completePayment id ids := rfl
    rw [same]
    cases completes : (world.later elapsed).ledger.complete id ids with
    | error e =>
      rw [Ledger.complete] at completes
      simp only [completePayment, reportPayment, completes]
      exact now
    | ok ledger => exact now.settled (h.lent.later_earlier elapsed) completes

/-- A payment gives what it is for exactly if none of the pair has completed before it. -/
theorem gains_iff (h : world.Selling pair) (turn : Nat × Call) :
    world.Uncharged pair turn ↔ world.Gains platform pair turn := by
  obtain ⟨elapsed, call⟩ := turn
  cases call with
  | purchase paymentMethod gateway => exact Iff.rfl
  | rent durationDays paymentMethod gateway => exact Iff.rfl
  | settle id ids =>
    have now := h.later elapsed
    cases completes : (world.later elapsed).ledger.complete id ids with
    | error e =>
      have refused : world.ledger.complete id ids = .error e := completes
      simp [Uncharged, Gains, completes, refused, Except.isOk, Except.toBool]
    | ok ledger =>
      have taken : world.ledger.complete id ids = .ok ledger := completes
      obtain ⟨payment, found, -⟩ := changeStatus_ok taken
      have sells := h.sells id payment found
      simp only [Uncharged, Gains, taken, completes, found, Except.isOk, Except.toBool,
        forall_const, Option.mem_some_iff, forall_eq']
      constructor
      · intro free
        obtain ⟨shelf, rentals⟩ := now.untouched free
        refine ⟨fun entitled => ?_, entitles_first now.offered shelf rentals found sells completes⟩
        rcases sells with purchase | rental
        · obtain ⟨item, listed, -⟩ := (entitles_purchase purchase).mp entitled
          rw [shelf] at listed
          cases listed
        · obtain ⟨⟨item, listed, -⟩, -⟩ := (entitles_rental rental).mp entitled
          rw [shelf] at listed
          cases listed
      · rintro ⟨without, entitled⟩ charged
        obtain ⟨item, listed, named⟩ := now.held charged
        exact without
          (entitles_again now.lent now.offered listed named found sells completes entitled)

/-- One purchase at most, if payments complete only while none of the pair has. -/
theorem boughtOnce (h : world.Selling pair) (once : world.BoughtOnce pair) (turn : Nat × Call)
    (uncharged : world.Uncharged pair turn) : (world.call platform pair turn).BoughtOnce pair := by
  obtain ⟨elapsed, call⟩ := turn
  have opened : ∀ after, Checkout pair (world.later elapsed) after → after.BoughtOnce pair := by
    rintro after (rfl | ⟨metadata, ledger, rfl, -, -, new⟩)
    · exact once
    · have old : ∀ payment ∈ ledger.payments.rows, payment.status = .completed →
          payment ∈ world.ledger.payments.rows := by
        intro payment recorded completed
        rcases new payment.id payment (Store.Table.find?_eq_some_iff.mpr ⟨recorded, rfl⟩) with
          before | ⟨uncompleted, -⟩
        · exact Store.Table.mem_of_find? before
        · exact absurd completed uncompleted
      intro first recorded second recorded' sale completed sale' completed'
      exact once first (old first recorded completed) second (old second recorded' completed') sale
        completed sale' completed'
  cases call with
  | purchase paymentMethod gateway => exact opened _ (purchase_opens h.named)
  | rent durationDays paymentMethod gateway => exact opened _ (rent_opens h.named)
  | settle id ids =>
    have same : world.call platform pair (elapsed, .settle id ids) =
        (world.later elapsed).completePayment id ids := rfl
    rw [same]
    cases completes : (world.later elapsed).ledger.complete id ids with
    | error e =>
      rw [Ledger.complete] at completes
      simp only [completePayment, reportPayment, completes]
      exact once
    | ok ledger =>
      have free : ¬ world.Charged pair := by
        have taken : world.ledger.complete id ids = .ok ledger := completes
        exact uncharged (by rw [taken]; rfl)
      -- whatever else has completed would have charged the pair before
      have only : ∀ payment ∈ ledger.payments.rows, payment.pairFor "purchase" = some pair →
          payment.status = .completed → payment.id = id := by
        intro payment recorded sale completed
        by_contra other
        have found := changeStatus_findById completes payment.id
        rw [if_neg other, Ledger.findById,
          Store.Table.find?_eq_some_iff.mpr ⟨recorded, rfl⟩] at found
        exact free ⟨payment, Store.Table.mem_of_find? found.symm, Or.inl sale, completed⟩
      rw [completePayment_eq completes]
      intro first recorded second recorded' sale completed sale' completed'
      exact (only first recorded sale completed).trans (only second recorded' sale' completed').symm

end Selling

end World

/-- Every payment that completes gives the reader what the reader did not have, and one
purchase at most completes, exactly in the runs in which no payment completes after
another of the same reader for the same book. -/
theorem charged_once_iff (platform : Platform) (books : List Book)
    (named : ∀ book ∈ books, book.id ≠ "") (now : Int) (pair : String × String)
    (turns : List (Nat × Call)) :
    (Trace.Meets (World.call platform pair) (World.Gains platform pair) (World.opening books now)
        turns ∧
      (Trace.run (World.call platform pair) (World.opening books now) turns).BoughtOnce pair) ↔
      Trace.Meets (World.call platform pair) (World.Uncharged pair) (World.opening books now)
        turns := by
  have start : (World.opening books now).Selling pair := .opening named now
  have gains : Trace.Meets (World.call platform pair) (World.Uncharged pair)
      (World.opening books now) turns ↔ Trace.Meets (World.call platform pair)
        (World.Gains platform pair) (World.opening books now) turns :=
    Trace.meets_congr (fun _ turn h => h.call turn) (fun _ turn h => h.gains_iff turn) start turns
  refine ⟨fun h => gains.mpr h.1, fun uncharged => ⟨gains.mp uncharged, ?_⟩⟩
  have once : (World.opening books now).BoughtOnce pair := by
    intro first recorded
    cases recorded
  have preserves : ∀ world turn, World.Selling pair world ∧ world.BoughtOnce pair →
      world.Uncharged pair turn → World.Selling pair (world.call platform pair turn) ∧
        (world.call platform pair turn).BoughtOnce pair :=
    fun world turn h ok => ⟨h.1.call turn, h.1.boughtOnce h.2 turn ok⟩
  exact (Trace.run_invariant preserves ⟨start, once⟩ uncharged).2

/-- A rental is opened and settles, and a purchase is refused. -/
theorem charged_once_iff_rental :
    let turns : List (Nat × Call) := [(0, .rent 7 none (.ok "order")), (0, .settle 0 {}),
      (0, .purchase none (.ok "order"))]
    (Trace.Meets (World.call .plain ("reader", "novel")) (World.Gains .plain ("reader", "novel"))
        (World.opening [novel] 0) turns ∧
      (Trace.run (World.call .plain ("reader", "novel")) (World.opening [novel] 0)
        turns).BoughtOnce ("reader", "novel")) ↔
      Trace.Meets (World.call .plain ("reader", "novel")) (World.Uncharged ("reader", "novel"))
        (World.opening [novel] 0) turns :=
  charged_once_iff .plain [novel] (by decide) 0 ("reader", "novel") _

/-- Two checkouts of one book are opened before either settles, and both settle. -/
theorem charged_twice :
    let turns : List (Nat × Call) := [(0, .purchase none (.ok "order")),
      (0, .purchase none (.ok "order")), (0, .settle 0 {}), (0, .settle 1 {})]
    ¬ Trace.Meets (World.call .plain ("reader", "novel")) (World.Gains .plain ("reader", "novel"))
        (World.opening [novel] 0) turns ∧
      ¬ (Trace.run (World.call .plain ("reader", "novel")) (World.opening [novel] 0)
        turns).BoughtOnce ("reader", "novel") := by
  decide

end Entitlements
