import Hakawi.Effects.Trace
import Hakawi.Entitlements.Listeners

/-!
# Owning what was bought

A completed purchase looks the reader and the book up on the shelf and leaves
any entry it finds as it is. An entry of a rental that completed between the
checkout and the completion therefore stays `rented`, and nothing upgrades it.
A settled refund takes the entry of the pair, even if the pair was paid twice.
-/

namespace Entitlements

open Common Payments Rentals Library Effects

/-- A request and all its handlers, or an event of a rental delivered by itself. -/
inductive Occasion where
  | request (elapsed : Nat) (request : Request)
  | event (event : RentalEvent)

namespace World
variable (world : World)

def occur (platform : Platform) (world : World) : Occasion → World
  | .request elapsed request => world.step platform (elapsed, request)
  | .event event => { world with shelf := hearRentalEvents world.shelf [event] }

/-- The readers and books with a completed purchase that is not refunded. -/
def bought : Set (String × String) :=
  {pair | ∃ payment ∈ world.ledger.payments.rows,
    world.ledger.Paid payment ∧ payment.pairFor "purchase" = some pair}

/-- The readers and books with an `owned` entry. -/
def owned : Set (String × String) :=
  {pair | ∃ item ∈ world.shelf.items.rows, item.pair = pair ∧ item.status = .owned}

instance (pair : String × String) : Decidable (pair ∈ world.bought) :=
  inferInstanceAs (Decidable (∃ payment ∈ world.ledger.payments.rows, _))

instance (pair : String × String) : Decidable (pair ∈ world.owned) :=
  inferInstanceAs (Decidable (∃ item ∈ world.shelf.items.rows, _))

/-- The reader and the book of the payment with this id, if it is of this type. -/
def saleOf (type : String) (id : Nat) : Option (String × String) :=
  (world.ledger.findById id).bind (·.pairFor type)

/-- No entry of the pair is a rented one. -/
def Unrented (pair : String × String) : Prop :=
  ∀ item ∈ world.shelf.items.rows, item.pair = pair → item.status = .owned

/-- No other payment keeps the pair bought. -/
def SolePurchase (id : Nat) (pair : String × String) : Prop :=
  ∀ other ∈ world.ledger.payments.rows, other.id ≠ id →
    other.pairFor "purchase" = some pair → ¬ world.ledger.Paid other

instance (pair : String × String) : Decidable (world.Unrented pair) :=
  inferInstanceAs (Decidable (∀ item ∈ world.shelf.items.rows, _))

instance (id : Nat) (pair : String × String) : Decidable (world.SolePurchase id pair) :=
  inferInstanceAs (Decidable (∀ other ∈ world.ledger.payments.rows, _))

/-- A purchase completes while no rental holds its book, it is refunded when it is the
only one, and a refusal does not complete it. -/
def Untroubled : Occasion → Prop
  | .request _ (.report id status ids) =>
    status = .completed → (world.ledger.changeStatus id status ids).isOk = true →
      ∀ pair ∈ world.saleOf "purchase" id, world.Unrented pair
  | .request _ (.refund input outcome answer) =>
    ∀ pair ∈ world.saleOf "purchase" input.paymentId,
      ∀ result ∈ (world.ledger.requestRefund input outcome answer).toOption.map Prod.fst,
        (result = .processed → world.SolePurchase input.paymentId pair) ∧
          (result ≠ .processed → world.ledger.Refusable input ∨ pair ∈ world.owned)
  | _ => True

instance : (occasion : Occasion) → Decidable (world.Untroubled occasion)
  | .request _ (.report ..) => inferInstanceAs (Decidable (_ → _ → ∀ pair ∈ _, _))
  | .request _ (.refund ..) => inferInstanceAs (Decidable (∀ pair ∈ _, ∀ result ∈ _, _))
  | .request _ (.purchase ..) => .isTrue trivial
  | .request _ (.rent ..) => .isTrue trivial
  | .request _ (.extendRental ..) => .isTrue trivial
  | .request _ (.returnRental ..) => .isTrue trivial
  | .request _ .sweep => .isTrue trivial
  | .event _ => .isTrue trivial

/-- Every purchase that is paid for is on the shelf as owned. -/
structure Shelved : Prop where
  sound : world.shelf.Sound
  owns : world.bought ⊆ world.owned

end World

namespace World
variable {world after : World} {pair : String × String}

theorem owned_mono (h : ∀ item ∈ world.shelf.items.rows, item.status = .owned →
    item ∈ after.shelf.items.rows) : world.owned ⊆ after.owned := by
  rintro pair ⟨item, hm, hp, owns⟩
  exact ⟨item, h item hm owns, hp, owns⟩

theorem saleOf_eq {id : Nat} {payment : Payment} {type : String}
    (found : world.ledger.findById id = some payment) :
    world.saleOf type id = payment.pairFor type := by
  rw [saleOf, found, Option.bind_some]

/-- A purchase that was not completed has no part in what is bought. -/
theorem bought_opens {userId : String} {metadata : Json} {ledger : Ledger}
    (opens : Opens userId metadata world.ledger ledger) :
    ({ world with ledger } : World).bought ⊆ world.bought := by
  rintro pair ⟨payment, recorded, paid, purchase⟩
  obtain ⟨recorded, paid⟩ := opens.paid recorded paid
  exact ⟨payment, recorded, paid, purchase⟩

theorem bought_changeStatus {id : Nat} {status : PaymentStatus} {ids : PaymentPatch}
    {ledger : Ledger} (changes : world.ledger.changeStatus id status ids = .ok ledger)
    (h : pair ∈ ({ world with ledger } : World).bought) :
    pair ∈ world.bought ∨ (status = .completed ∧ world.saleOf "purchase" id = some pair) := by
  obtain ⟨payment, recorded, paid, purchase⟩ := h
  rcases changeStatus_paid changes recorded paid with ⟨recorded, paid⟩ | ⟨completed, rfl⟩
  · exact Or.inl ⟨payment, recorded, paid, purchase⟩
  · obtain ⟨before, found, sale⟩ := (changeStatus_continues changes).from_ payment.id payment
      (Store.Table.find?_eq_some_iff.mpr ⟨recorded, rfl⟩)
    refine Or.inr ⟨completed, ?_⟩
    rw [saleOf_eq found, ← sale.pairFor]
    exact purchase

/-- Another payment keeps a pair bought over a refund only if it kept it before. -/
theorem bought_requestRefund {input : RefundInput} {outcome result : RefundOutcome}
    {answer : RefundPatch} {ledger : Ledger}
    (requests : world.ledger.requestRefund input outcome answer = .ok (result, ledger))
    (refusable : result ≠ .processed → world.saleOf "purchase" input.paymentId = some pair →
      world.ledger.Refusable input)
    (h : pair ∈ ({ world with ledger } : World).bought) :
    pair ∈ world.bought ∧ (result = .processed → ¬ world.SolePurchase input.paymentId pair) := by
  obtain ⟨payment, recorded, paid, purchase⟩ := h
  have needed : result ≠ .processed → payment.id = input.paymentId →
      world.ledger.Refusable input := by
    intro unprocessed same
    obtain ⟨before, found, sale⟩ := (requestRefund_continues requests).from_ payment.id payment
      (Store.Table.find?_eq_some_iff.mpr ⟨recorded, rfl⟩)
    refine refusable unprocessed ?_
    rw [same] at found
    rw [saleOf_eq found, ← sale.pairFor]
    exact purchase
  obtain ⟨different, recorded, paid⟩ := requestRefund_paid requests needed recorded paid
  refine ⟨⟨payment, recorded, paid, purchase⟩, fun processed sole => ?_⟩
  exact sole payment recorded (different processed) purchase paid

theorem onPaymentCompleted_owns {id : Nat} {payment : Payment}
    (found : world.ledger.findById id = some payment)
    (purchase : payment.pairFor "purchase" = some pair) (unrented : world.Unrented pair) :
    pair ∈ (world.onPaymentCompleted id).owned := by
  cases onPaymentCompleted_grants found purchase with
  | held item present same kept =>
    rcases same with same | ⟨named, -⟩
    · exact ⟨item, kept ▸ present, same, unrented item present same⟩
    · cases named
  | added item free unnamed rows named from_ as =>
    exact ⟨item, by rw [rows]; exact List.mem_append_right _ List.mem_cons_self, named, as⟩

theorem Shelved.effect {elapsed : Nat} {request : Request} (h : world.Shelved)
    (untroubled : world.Untroubled (.request elapsed request))
    (effect : Effect world request after) : after.Shelved := by
  cases effect with
  | refused => exact h
  | opened request userId metadata ledger opens offer =>
    exact ⟨h.sound, (bought_opens opens).trans h.owns⟩
  | reported id status ids ledger changes uncompleted =>
    refine ⟨h.sound, fun pair bought => ?_⟩
    rcases bought_changeStatus changes bought with before | ⟨completed, -⟩
    · exact h.owns before
    · exact absurd completed uncompleted
  | completed id ids ledger completes =>
    let paid : World := { world with ledger }
    have before : paid.shelf.Sound := h.sound
    obtain ⟨sound, adds, -⟩ := onPaymentCompleted_adds before id
    refine ⟨sound, fun pair bought => ?_⟩
    rcases bought_changeStatus completes bought with kept | ⟨-, purchase⟩
    · exact owned_mono (fun item hm _ => adds item (completion_keeps before id item hm)) (h.owns kept)
    · have unrented := untroubled rfl (by rw [Ledger.complete] at completes; rw [completes]; rfl)
        pair purchase
      obtain ⟨payment, found, -⟩ := changeStatus_ok completes
      obtain ⟨now, foundNow, sale⟩ := (changeStatus_continues completes).kept id payment found
      rw [saleOf_eq found, ← sale.pairFor] at purchase
      have still : paid.Unrented pair := unrented
      exact onPaymentCompleted_owns foundNow purchase still
  | unsettled input outcome result answer ledger requests unprocessed =>
    refine ⟨h.sound, fun pair bought => ?_⟩
    by_cases already : pair ∈ world.owned
    · exact already
    · have refusable : result ≠ .processed → world.saleOf "purchase" input.paymentId = some pair →
          world.ledger.Refusable input := by
        intro _ purchase
        have condition := untroubled pair purchase result (by rw [requests]; rfl)
        exact (condition.2 unprocessed).resolve_right already
      exact h.owns (bought_requestRefund requests refusable bought).1
  | refunded input outcome answer ledger requests =>
    let repaid : World := { world with ledger }
    have before : repaid.shelf.Sound := h.sound
    obtain ⟨payment, now, ⟨restates, -⟩⟩ := requestRefund_ok requests
    obtain ⟨sound, -, survives⟩ := onRefundCompleted_survives before restates.leaves
    refine ⟨sound, fun pair bought => ?_⟩
    obtain ⟨kept, shared⟩ := bought_requestRefund requests (fun e => absurd rfl e) bought
    obtain ⟨item, hm, rfl, owns⟩ := h.owns kept
    have unnamed := h.sound.owned item hm owns
    refine ⟨item, survives item hm (fun _ _ _ _ _ _ => ?_) fun purchase => shared rfl ?_, rfl, owns⟩
    · rw [unnamed]
      simp
    obtain ⟨found, foundNow, sale⟩ :=
      (requestRefund_continues requests).from_ input.paymentId now restates.leaves
    rw [sale.pairFor] at purchase
    have condition := untroubled item.pair ((saleOf_eq foundNow).trans purchase) .processed
      (by rw [requests]; rfl)
    exact condition.1 rfl
  | returned id userId result returns =>
    have hears := hearRentalEvents_hears h.sound result.2
    exact ⟨hears.sound, h.owns.trans (owned_mono fun _ => hears.owned h.sound)⟩
  | swept =>
    have hears := hearRentalEvents_hears h.sound
      (Rentals.checkAndExpireOverdue world.rentals world.now).2
    exact ⟨hears.sound, h.owns.trans (owned_mono fun _ => hears.owned h.sound)⟩

theorem Shelved.occur {platform : Platform} (h : world.Shelved) (occasion : Occasion)
    (untroubled : world.Untroubled occasion) : (world.occur platform occasion).Shelved := by
  cases occasion with
  | request elapsed request =>
    have later : (world.later elapsed).Shelved := ⟨h.sound, h.owns⟩
    have same : (world.later elapsed).Untroubled (.request elapsed request) := by
      cases request <;> exact untroubled
    exact later.effect same (handle_effect platform _ request)
  | event event =>
    have hears := hearRentalEvents_hears h.sound [event]
    exact ⟨hears.sound, h.owns.trans (owned_mono fun _ => hears.owned h.sound)⟩

end World

/-- Over any untroubled run, whoever bought a book owns it. -/
theorem bought_owned (platform : Platform) (books : List Book) (now : Int)
    (occasions : List Occasion)
    (untroubled : Trace.Meets (World.occur platform) World.Untroubled (World.opening books now)
      occasions) :
    let world := Trace.run (World.occur platform) (World.opening books now) occasions
    world.bought ⊆ world.owned := by
  have start : (World.opening books now).Shelved := by
    refine ⟨.empty, ?_⟩
    rintro pair ⟨payment, recorded, -⟩
    cases recorded
  exact (Trace.run_invariant (fun world occasion h ok => h.occur occasion ok) start untroubled).owns

/-- A purchase that completes, while the end of some rental is announced. -/
theorem bought_owned_purchase :
    let occasions : List Occasion := [.request 0 buyNovel, .request 0 (.report 0 .completed {}),
      .event (.expired 3)]
    let world := Trace.run (World.occur .plain) (World.opening [novel] 0) occasions
    world.bought ⊆ world.owned :=
  bought_owned .plain [novel] 0 _ (by decide)

/-- A rental completes between the checkout of a purchase and its completion. -/
theorem bought_notOwned :
    let occasions : List Occasion := [.request 0 (rentNovel 7), .request 0 buyNovel,
      .request 0 (.report 0 .completed {}), .request 0 (.report 1 .completed {})]
    let world := Trace.run (World.occur .plain) (World.opening [novel] 0) occasions
    ("reader", "novel") ∈ world.bought ∧ ("reader", "novel") ∉ world.owned := by
  decide

end Entitlements
