import Hakawi.Entitlements.Ownership
import Hakawi.Entitlements.RentalGrant

/-!
# Grants that overlap

All grants of one reader and one book share one entry. A refunded purchase takes
the pair's entry and an ended rental takes the entry that names it, whoever else
is still entitled. The tables do not say which payment a rental was created for,
so a chronicle of the run does.
-/

namespace Entitlements

open Common Payments Rentals Library Effects

namespace World
variable (world : World)

/-- The readers and books with an entry. -/
def held : Set (String × String) := {pair | ∃ item ∈ world.shelf.items.rows, item.pair = pair}

instance (pair : String × String) : Decidable (pair ∈ world.held) :=
  inferInstanceAs (Decidable (∃ item ∈ world.shelf.items.rows, _))

/-- The rentals that a request ends because they were returned or are overdue. -/
def endings : Request → List Nat
  | .returnRental id userId =>
    if (Rentals.returnRental world.rentals world.now id userId).isOk then [id] else []
  | .sweep => (world.rentals.findOverdue world.now).map Rental.id
  | _ => []

/-- The payment that completed, with the rental that was created for it. -/
def creations (after : World) : Request → List (Nat × Nat)
  | .report id _ _ =>
    if world.rentals.rentals.next < after.rentals.rentals.next then
      [(id, world.rentals.rentals.next)]
    else []
  | _ => []

end World

/-- A run so far: where it led, which rentals were created for which payments, and
which have ended. -/
structure Chronicle where
  world : World
  created : List (Nat × Nat)
  ended : List Nat

namespace Chronicle

def opening (books : List Book) (now : Int) : Chronicle := ⟨World.opening books now, [], []⟩

variable (chronicle : Chronicle)

/-- Records a request that led to a world. -/
def record (request : Request) (after : World) : Chronicle :=
  { world := after
    created := chronicle.created ++ chronicle.world.creations after request
    ended := chronicle.ended ++ chronicle.world.endings request }

def later (elapsed : Nat) : Chronicle := { chronicle with world := chronicle.world.later elapsed }

def step (platform : Platform) (chronicle : Chronicle) (turn : Nat × Request) : Chronicle :=
  let now := chronicle.later turn.1
  now.record turn.2 (now.world.handle platform turn.2)

/-- The rental that was created for this payment has ended. -/
def Over (paymentId : Nat) : Prop :=
  ∃ rentalId ∈ chronicle.ended, (paymentId, rentalId) ∈ chronicle.created

/-- A purchase, or a rental that has not ended. -/
def Covers (payment : Payment) (pair : String × String) : Prop :=
  payment.pairFor "purchase" = some pair ∨
    (payment.pairFor "rental" = some pair ∧ ¬ chronicle.Over payment.id)

/-- The readers and books that somebody paid for, and still may use. -/
def entitled : Set (String × String) :=
  {pair | ∃ payment ∈ chronicle.world.ledger.payments.rows,
    chronicle.world.ledger.Paid payment ∧ chronicle.Covers payment pair}

/-- No payment entitles to the pair, with this one left aside. -/
def Alone (paymentId : Nat) (pair : String × String) : Prop :=
  ∀ other ∈ chronicle.world.ledger.payments.rows, other.id ≠ paymentId →
    chronicle.world.ledger.Paid other → ¬ chronicle.Covers other pair

instance (paymentId : Nat) : Decidable (chronicle.Over paymentId) :=
  inferInstanceAs (Decidable (∃ rentalId ∈ chronicle.ended, _))

instance (payment : Payment) (pair : String × String) : Decidable (chronicle.Covers payment pair) :=
  inferInstanceAs (Decidable (_ ∨ _))

instance (pair : String × String) : Decidable (pair ∈ chronicle.entitled) :=
  inferInstanceAs (Decidable (∃ payment ∈ chronicle.world.ledger.payments.rows, _))

instance (paymentId : Nat) (pair : String × String) : Decidable (chronicle.Alone paymentId pair) :=
  inferInstanceAs (Decidable (∀ other ∈ chronicle.world.ledger.payments.rows, _))

/-- An entry that names a rental which ends now is needed by no one afterwards. -/
def EndsAlone (endings : List Nat) : Prop :=
  ∀ item ∈ chronicle.world.shelf.items.rows, ∀ rentalId ∈ endings,
    item.rentalId = some rentalId →
      item.pair ∉ ({ chronicle with ended := chronicle.ended ++ endings } : Chronicle).entitled

/-- A rental that completes into an active one of its pair finds an entry there. -/
def CompletesHeld (paymentId : Nat) : Prop :=
  ∀ pair ∈ chronicle.world.saleOf "rental" paymentId,
    ∀ rental ∈ chronicle.world.rentals.findByUserAndBook pair.1 pair.2,
      rental.status = .active → pair ∈ chronicle.world.held

/-- What a settled refund takes off the shelf was needed for nothing else. -/
def RefundsAlone (paymentId : Nat) : Prop :=
  (∀ pair ∈ chronicle.world.saleOf "purchase" paymentId, chronicle.Alone paymentId pair) ∧
    ∀ pair ∈ chronicle.world.saleOf "rental" paymentId,
      ∀ rental ∈ chronicle.world.rentals.findByUserAndBook pair.1 pair.2,
        rental.status ≠ .expired → rental.status ≠ .returned →
          ∀ item ∈ chronicle.world.shelf.items.rows, item.rentalId = some rental.id →
            chronicle.Alone paymentId item.pair

/-- A refusal does not complete a payment, or there is an entry for what it is for. -/
def RefusedHeld (input : RefundInput) : Prop :=
  chronicle.world.ledger.Refusable input ∨
    ∀ payment ∈ chronicle.world.ledger.findById input.paymentId, ∀ type ∈ ["purchase", "rental"],
      ∀ pair ∈ payment.pairFor type, pair ∈ chronicle.world.held

/-- The request takes no entry that anybody else needs. -/
def Spares : Request → Prop
  | .report id status ids =>
    status = .completed → (chronicle.world.ledger.changeStatus id status ids).isOk = true →
      chronicle.CompletesHeld id
  | .refund input outcome answer =>
    ∀ result ∈ (chronicle.world.ledger.requestRefund input outcome answer).toOption.map Prod.fst,
      (result = .processed → chronicle.RefundsAlone input.paymentId) ∧
        (result ≠ .processed → chronicle.RefusedHeld input)
  | request => chronicle.EndsAlone (chronicle.world.endings request)

def Separate (turn : Nat × Request) : Prop := (chronicle.later turn.1).Spares turn.2

instance (endings : List Nat) : Decidable (chronicle.EndsAlone endings) :=
  inferInstanceAs (Decidable (∀ item ∈ chronicle.world.shelf.items.rows, ∀ rentalId ∈ _, _))

instance (paymentId : Nat) : Decidable (chronicle.CompletesHeld paymentId) :=
  inferInstanceAs (Decidable (∀ pair ∈ _, ∀ rental ∈ _, _))

instance (paymentId : Nat) : Decidable (chronicle.RefundsAlone paymentId) :=
  inferInstanceAs (Decidable ((∀ pair ∈ _, _) ∧ ∀ pair ∈ _, ∀ rental ∈ _, _ → _ → ∀ item ∈
    chronicle.world.shelf.items.rows, _))

instance (input : RefundInput) : Decidable (chronicle.RefusedHeld input) :=
  inferInstanceAs (Decidable (_ ∨ ∀ payment ∈ _, ∀ type ∈ _, ∀ pair ∈ _, _))

instance decidableSpares : (request : Request) → Decidable (chronicle.Spares request)
  | .report .. => inferInstanceAs (Decidable (_ → _ → _))
  | .refund .. => inferInstanceAs (Decidable (∀ result ∈ _, _))
  | .purchase .. => inferInstanceAs (Decidable (Chronicle.EndsAlone _ _))
  | .rent .. => inferInstanceAs (Decidable (Chronicle.EndsAlone _ _))
  | .extendRental .. => inferInstanceAs (Decidable (Chronicle.EndsAlone _ _))
  | .returnRental .. => inferInstanceAs (Decidable (Chronicle.EndsAlone _ _))
  | .sweep => inferInstanceAs (Decidable (Chronicle.EndsAlone _ _))

instance (turn : Nat × Request) : Decidable (chronicle.Separate turn) :=
  decidableSpares _ turn.2

end Chronicle

namespace World
variable {world after : World} {request : Request} {pair : String × String}

/-- No entry names a rental that is still to come. -/
def Fresh (world : World) : Prop :=
  ∀ item ∈ world.shelf.items.rows, ∀ rentalId, item.rentalId = some rentalId →
    rentalId < world.rentals.rentals.next

theorem afterRentals_fresh (fresh : world.Fresh) (sound : world.shelf.Sound)
    {result : RentalsTables × List RentalEvent}
    (grows : world.rentals.rentals.next ≤ result.1.rentals.next)
    (new : ∀ event ∈ result.2, ∀ rentalId userId bookId,
      event = .created rentalId userId bookId → rentalId < result.1.rentals.next) :
    (world.afterRentals result).Fresh := by
  intro item hm rentalId named
  rcases (hearRentalEvents_hears sound result.2).origin item hm with old | ⟨id, u, b, listed, is⟩
  · exact Nat.lt_of_lt_of_le (fresh item old rentalId named) grows
  · obtain rfl := Option.some.inj (named.symm.trans is)
    exact new _ listed rentalId u b rfl

theorem Effect.fresh (effect : Effect world request after) (fresh : world.Fresh)
    (sound : world.shelf.Sound) : after.Fresh := by
  cases effect with
  | refused => exact fresh
  | opened => exact fresh
  | reported => exact fresh
  | completed id ids ledger completes =>
    let paid : World := { world with ledger }
    have before : paid.shelf.Sound := sound
    obtain ⟨grows, events⟩ := completion_events paid id
    have heard : (paid.afterRentals (paid.completion id)).Fresh :=
      afterRentals_fresh fresh sound grows fun event he rentalId userId bookId created => by
        obtain ⟨rfl, lt⟩ := (events event he).2 rentalId userId bookId created
        exact lt
    intro item hm rentalId named
    rcases (onPaymentCompleted_adds before id).2.2 item hm with old | unnamed
    · exact heard item old rentalId named
    · rw [unnamed] at named
      cases named
  | unsettled => exact fresh
  | refunded input outcome answer ledger requests =>
    let repaid : World := { world with ledger }
    have before : repaid.shelf.Sound := sound
    obtain ⟨payment, now, ⟨restates, -⟩⟩ := requestRefund_ok requests
    have found : repaid.ledger.findById input.paymentId = some now := restates.leaves
    intro item hm rentalId named
    have old := (onRefundCompleted_survives before found).2.1 item hm
    exact Nat.lt_of_lt_of_eq (fresh item old rentalId named) (revocation_events found).1.symm
  | returned id userId result returns =>
    obtain ⟨next, events⟩ := returnRental_events returns
    refine afterRentals_fresh fresh sound next.ge fun event he rentalId userId bookId created => ?_
    rw [events, List.mem_singleton] at he
    rw [he] at created
    cases created
  | swept =>
    refine afterRentals_fresh fresh sound (checkAndExpireOverdue_next _ _).ge
      fun event he rentalId userId bookId created => ?_
    obtain ⟨rental, -, rfl⟩ := List.mem_map.mp he
    cases created

theorem held_of_grants {status : LibraryStatus}
    (grants : Shelf.Grants pair none status world.shelf after.shelf) : pair ∈ after.held := by
  cases grants with
  | held item present same kept =>
    rcases same with same | ⟨named, -⟩
    · exact ⟨item, kept ▸ present, same⟩
    · cases named
  | added item free unnamed rows named =>
    exact ⟨item, by rw [rows]; exact List.mem_append_right _ List.mem_cons_self, named⟩

/-- A rental that completes is on the shelf, unless an active one of its pair is not. -/
theorem onPaymentCompleted_held {id : Nat} {payment : Payment} {days : Rat}
    (sound : world.shelf.Sound) (fresh : world.Fresh)
    (found : world.ledger.findById id = some payment)
    (sale : payment.pairFor "rental" = some pair)
    (usable : metaDays payment "durationDays" = some days)
    (present : ∀ rental ∈ world.rentals.findByUserAndBook pair.1 pair.2,
      rental.status = .active → pair ∈ world.held) :
    pair ∈ (world.onPaymentCompleted id).held := by
  obtain ⟨-, adds, -⟩ := onPaymentCompleted_adds sound id
  have completion : world.completion id = grantRental world.rentals world.now payment := by
    rw [World.completion, handlePaymentCompleted_rental found (Payment.pairFor_eq_some.mp sale).1]
    rfl
  suffices heard : pair ∈ (world.afterRentals (world.completion id)).held by
    obtain ⟨item, hm, same⟩ := heard
    exact ⟨item, adds item hm, same⟩
  rcases grantRental_cases world.rentals world.now sale usable with
    ⟨active, kept⟩ | ⟨-, created⟩
  · obtain ⟨rental, newest, status⟩ := Option.map_eq_some_iff.mp active
    obtain ⟨item, hm, same⟩ := present rental newest status
    exact ⟨item, completion_keeps sound id item hm, same⟩
  · obtain ⟨shelf, he, grants⟩ := Shelf.handleRentalCreated_grants world.shelf
      world.rentals.rentals.next pair.1 pair.2
    have heard : (world.afterRentals (world.completion id)).shelf = shelf := by
      rw [completion, created]
      simp only [afterRentals, hearRentalEvents, List.foldl_cons, List.foldl_nil,
        Shelf.handleRentalEvent, he, settledOr]
    rw [held, heard]
    cases grants with
    | held item hm same kept =>
      rcases same with same | ⟨-, named⟩
      · exact ⟨item, kept ▸ hm, same⟩
      · exact absurd (fresh item hm _ named) (lt_irrefl _)
    | added item free unnamed rows named =>
      exact ⟨item, by rw [rows]; exact List.mem_append_right _ List.mem_cons_self, named⟩

end World

namespace Chronicle
variable {chronicle : Chronicle} {after : World} {request : Request} {payment : Payment}
  {pair : String × String}

/-- Whoever is entitled to a book has an entry for it. -/
structure Upheld (chronicle : Chronicle) : Prop where
  booked : Booked chronicle.world
  sound : chronicle.world.shelf.Sound
  fresh : chronicle.world.Fresh
  held : chronicle.entitled ⊆ chronicle.world.held

/-- What has ended stays so. -/
theorem covers_record (h : (chronicle.record request after).Covers payment pair) :
    chronicle.Covers payment pair := by
  refine h.imp_right fun ⟨sale, running⟩ => ⟨sale, fun ⟨rentalId, ended, created⟩ => running ?_⟩
  exact ⟨rentalId, List.mem_append_left _ ended, List.mem_append_left _ created⟩

theorem covers_ended (h : (chronicle.record request after).Covers payment pair) :
    ({ chronicle with ended := chronicle.ended ++ chronicle.world.endings request } :
      Chronicle).Covers payment pair := by
  refine h.imp_right fun ⟨sale, running⟩ => ⟨sale, fun ⟨rentalId, ended, created⟩ => running ?_⟩
  exact ⟨rentalId, ended, List.mem_append_left _ created⟩

theorem saleOf_found {ledger : Ledger} (continues : Continues chronicle.world.ledger ledger)
    {type : String} {now : Payment} {id : Nat} (found : ledger.findById id = some now)
    (sale : now.pairFor type = some pair) : chronicle.world.saleOf type id = some pair := by
  obtain ⟨before, foundBefore, same⟩ := continues.from_ id now found
  rw [World.saleOf_eq foundBefore, ← same.pairFor]
  exact sale

theorem metaDays_offered {ledger : Ledger} (offered : Offered ledger) {id : Nat}
    (found : ledger.findById id = some payment) (sale : payment.pairFor "rental" = some pair) :
    ∃ days, metaDays payment "durationDays" = some days := by
  obtain ⟨days, listed, duration⟩ :=
    offered id payment found (Payment.pairFor_eq_some.mp sale).1
  have positive : (0 : Rat) < days := by exact_mod_cast duration_pos listed
  exact ⟨days, by simp [metaDays, duration, positive]⟩

/-- An entry that no rental of these names, or that nobody needs, is where it was. -/
theorem EndsAlone.survives {endings : List Nat} {events : List RentalEvent}
    (alone : chronicle.EndsAlone endings) (sound : chronicle.world.shelf.Sound)
    (listed : ∀ event ∈ events, ∀ rentalId, event.ending = some rentalId → rentalId ∈ endings)
    (entitled : pair ∈ ({ chronicle with ended := chronicle.ended ++ endings } : Chronicle).entitled)
    {item : LibraryItem} (hm : item ∈ chronicle.world.shelf.items.rows) (same : item.pair = pair) :
    item ∈ (hearRentalEvents chronicle.world.shelf events).items.rows := by
  refine (hearRentalEvents_hears sound events).survives item hm fun event he rentalId ending => ?_
  intro named
  exact alone item hm rentalId (listed event he rentalId ending) named (same ▸ entitled)

theorem Upheld.effect (h : chronicle.Upheld) (spares : chronicle.Spares request)
    (effect : World.Effect chronicle.world request after) :
    (chronicle.record request after).Upheld := by
  refine ⟨h.booked.effect effect, effect.sound h.sound, effect.fresh h.fresh h.sound, ?_⟩
  rintro pair ⟨payment, recorded, paid, covers⟩
  have covered := covers_record covers
  cases effect with
  | refused => exact h.held ⟨payment, recorded, paid, covered⟩
  | opened request userId metadata ledger opens offer =>
    obtain ⟨recorded, paid⟩ := opens.paid recorded paid
    exact h.held ⟨payment, recorded, paid, covered⟩
  | reported id status ids ledger changes uncompleted =>
    rcases changeStatus_paid changes recorded paid with ⟨recorded, paid⟩ | ⟨completed, -⟩
    · exact h.held ⟨payment, recorded, paid, covered⟩
    · exact absurd completed uncompleted
  | completed id ids ledger completes =>
    let now : World := { chronicle.world with ledger }
    have sound : now.shelf.Sound := h.sound
    rcases changeStatus_paid completes recorded paid with ⟨recorded, paid⟩ | ⟨-, rfl⟩
    · obtain ⟨item, hm, same⟩ := h.held ⟨payment, recorded, paid, covered⟩
      refine ⟨item, (World.onPaymentCompleted_adds sound id).2.1 item ?_, same⟩
      exact World.completion_keeps sound id item hm
    · have found : now.ledger.findById payment.id = some payment :=
        Store.Table.find?_eq_some_iff.mpr ⟨recorded, rfl⟩
      have continues := changeStatus_continues completes
      rcases covered with purchase | ⟨rental, -⟩
      · exact World.held_of_grants (World.onPaymentCompleted_grants found purchase)
      · obtain ⟨days, usable⟩ := metaDays_offered (h.booked.offered.continues continues) found rental
        have condition := spares rfl (by rw [Ledger.complete] at completes; rw [completes]; rfl)
          pair (saleOf_found continues found rental)
        exact World.onPaymentCompleted_held sound h.fresh found rental usable condition
  | unsettled input outcome result answer ledger requests unprocessed =>
    have continues := requestRefund_continues requests
    have condition := (spares result (by rw [requests]; rfl)).2 unprocessed
    by_cases same : payment.id = input.paymentId
    · rcases condition with refusable | present
      · obtain ⟨-, recorded, paid⟩ :=
          requestRefund_paid requests (fun _ _ => refusable) recorded paid
        exact h.held ⟨payment, recorded, paid, covered⟩
      · obtain ⟨before, found, sale⟩ := continues.from_ payment.id payment
          (Store.Table.find?_eq_some_iff.mpr ⟨recorded, rfl⟩)
        rw [same] at found
        rcases covered with purchase | ⟨rental, -⟩
        · rw [sale.pairFor] at purchase
          exact present before found "purchase" (by decide) pair purchase
        · rw [sale.pairFor] at rental
          exact present before found "rental" (by decide) pair rental
    · obtain ⟨-, recorded, paid⟩ :=
        requestRefund_paid requests (fun _ e => absurd e same) recorded paid
      exact h.held ⟨payment, recorded, paid, covered⟩
  | refunded input outcome answer ledger requests =>
    let now : World := { chronicle.world with ledger }
    have sound : now.shelf.Sound := h.sound
    have continues := requestRefund_continues requests
    have condition := (spares .processed (by rw [requests]; rfl)).1 rfl
    obtain ⟨different, recorded, paid⟩ :=
      requestRefund_paid requests (fun e => absurd rfl e) recorded paid
    obtain ⟨item, hm, rfl⟩ := h.held ⟨payment, recorded, paid, covered⟩
    obtain ⟨_, refunded, ⟨restates, -⟩⟩ := requestRefund_ok requests
    have found : now.ledger.findById input.paymentId = some refunded := restates.leaves
    refine ⟨item, (World.onRefundCompleted_survives sound found).2.2 item hm ?_ ?_, rfl⟩
    · intro revoked rental sale newest running kept named
      exact condition.2 revoked (saleOf_found continues found sale) rental newest running kept item
        hm named payment recorded (different rfl) paid covered
    · intro purchase
      exact condition.1 item.pair (saleOf_found continues found purchase) payment recorded
        (different rfl) paid covered
  | returned id userId result returns =>
    have endings : chronicle.world.endings (.returnRental id userId) = [id] := by
      simp [World.endings, returns, Except.isOk, Except.toBool]
    obtain ⟨item, hm, same⟩ := h.held ⟨payment, recorded, paid, covered⟩
    refine ⟨item, EndsAlone.survives spares h.sound (fun event he rentalId ending => ?_)
      ⟨payment, recorded, paid, covers_ended covers⟩ hm same, same⟩
    rw [(returnRental_events returns).2, List.mem_singleton] at he
    rw [he] at ending
    rw [endings, ← Option.some.inj ending]
    exact List.mem_singleton_self _
  | swept =>
    obtain ⟨item, hm, same⟩ := h.held ⟨payment, recorded, paid, covered⟩
    refine ⟨item, EndsAlone.survives spares h.sound (fun event he rentalId ending => ?_)
      ⟨payment, recorded, paid, covers_ended covers⟩ hm same, same⟩
    obtain ⟨rental, overdue, rfl⟩ := List.mem_map.mp he
    rw [← Option.some.inj ending]
    exact List.mem_map_of_mem overdue

theorem Upheld.step {platform : Platform} (h : chronicle.Upheld) (turn : Nat × Request)
    (separate : chronicle.Separate turn) : (chronicle.step platform turn).Upheld := by
  have later : (chronicle.later turn.1).Upheld :=
    ⟨h.booked.later turn.1, h.sound, h.fresh, h.held⟩
  exact later.effect separate (World.handle_effect platform _ turn.2)

end Chronicle

/-- Over any run whose steps take no entry that others need, whoever is entitled to a
book has an entry for it. -/
theorem entitled_held (platform : Platform) (books : List Book) (now : Int)
    (turns : List (Nat × Request))
    (separate : Trace.Meets (Chronicle.step platform) Chronicle.Separate
      (Chronicle.opening books now) turns) :
    let chronicle := Trace.run (Chronicle.step platform) (Chronicle.opening books now) turns
    chronicle.entitled ⊆ chronicle.world.held := by
  have start : (Chronicle.opening books now).Upheld := by
    refine ⟨booked_run .plain books now [], .empty, ?_, ?_⟩
    · intro item hm
      cases hm
    · rintro pair ⟨payment, recorded, -⟩
      cases recorded
  exact (Trace.run_invariant (fun chronicle turn h ok => h.step turn ok) start separate).held

/-- A purchase and a rental of the same book, of which the rental is returned. -/
theorem entitled_held_returned :
    let turns : List (Nat × Request) := [(0, buyNovel), (0, rentNovel 7), (0, .report 0 .completed {}),
      (0, .report 1 .completed {}), (0, .returnRental 0 "reader")]
    let chronicle := Trace.run (Chronicle.step .plain) (Chronicle.opening [novel] 0) turns
    chronicle.entitled ⊆ chronicle.world.held :=
  entitled_held .plain [novel] 0 _ (by decide)

/-- The refund of the purchase takes the only entry, and the rental is still paid and
running. -/
theorem entitled_notHeld :
    let turns : List (Nat × Request) := [(0, buyNovel), (0, rentNovel 7), (0, .report 0 .completed {}),
      (0, .report 1 .completed {}), (0, .refund ⟨0, 5000, "EGP", none⟩ .processed {})]
    let chronicle := Trace.run (Chronicle.step .plain) (Chronicle.opening [novel] 0) turns
    ("reader", "novel") ∈ chronicle.entitled ∧ ("reader", "novel") ∉ chronicle.world.held ∧
      (chronicle.world.rentals.findActiveRentalForBook chronicle.world.now "reader" "novel").isSome = true := by
  decide

end Entitlements
