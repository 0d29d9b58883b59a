import Hakawi.Publishers.Reviews

/-!
# The writers of a publisher

The route that adds a writer looks for the application under the id of the user, where the id of
the application is asked for. The routes that change and remove a link look for the pair.
-/

namespace Publishers
open Html Common Store Effects
open Admin (Uuids)

section Writers
variable (uuids : Uuids)

/-- The execution in which every call is carried out. -/
abbrev performing : Program.OpSpec Call Call.Answer World :=
  Program.execSpec (exec uuids) fun choice => choice.outcome = .performed

/-- What a method run alone ends with. -/
def alone {α : Type} (choices : Nat → Choice) (world : World) (p : Method α) :
    Except Exception α × World := p.run.eval (exec uuids) choices world

/-- The user has applied, and was approved. -/
def World.Approved (world : World) (userId : String) : Prop :=
  ∃ application ∈ world.applications.rows,
    application.userId = userId ∧ application.status = .approved

/-- The route answers with a link of the two, and has written it. -/
def Adds (choices : Nat → Choice) (world : World) (userId : String)
    (dto : CreatePublisherWriterDto) : Prop :=
  ∃ link, (alone uuids choices world (PublishersService.addWriter userId dto)).1 = .ok link ∧
    (alone uuids choices world (PublishersService.addWriter userId dto)).2.writers.find?
      (userId, dto.writerId) = some link

/-- The routes for a link that is there change it, or remove it, and leave all others. -/
structure LinkRoutes (userId writerId : String) : Prop where
  updates : ∀ (choices : Nat → Choice) (world : World) (link : PublisherWriter)
    (dto : UpdatePublisherWriterDto), (∀ n, (choices n).outcome = .performed) →
    world.writers.find? (userId, writerId) = some link →
    (∃ e, alone uuids choices world (PublishersService.updateWriterLink userId writerId dto) =
      (.error e, (alone uuids choices world
        (PublishersService.updateWriterLink userId writerId dto)).2) ∧
      (alone uuids choices world
        (PublishersService.updateWriterLink userId writerId dto)).2.writers = world.writers) ∨
    ∃ now updated, link.update dto now = .ok updated ∧
      (alone uuids choices world (PublishersService.updateWriterLink userId writerId dto)).1 =
        .ok updated ∧
      (alone uuids choices world
        (PublishersService.updateWriterLink userId writerId dto)).2.writers.rows =
          world.writers.rows.map fun row => if row.pair = (userId, writerId) then
            { updated with publisherId := row.publisherId, writerId := row.writerId } else row
  removes : ∀ (choices : Nat → Choice) (world : World) (link : PublisherWriter),
    (∀ n, (choices n).outcome = .performed) →
    world.writers.find? (userId, writerId) = some link →
    (alone uuids choices world (PublishersService.removeWriter userId writerId)).1 = .ok () ∧
      (alone uuids choices world
        (PublishersService.removeWriter userId writerId)).2.writers.rows =
          world.writers.rows.filter fun row => row.pair ≠ (userId, writerId)

variable {uuids} {world : World} {α : Type} {Q : Except Exception α → World → Prop}
  {userId writerId : String}

/-- A call that is carried out and answers. -/
theorem wpE_answered {op : Call} {next : op.Value → Method α}
    (goes : ∀ choice : Choice, choice.outcome = .performed → ∃ value after,
      exec uuids choice world op = (.ok value, after) ∧
        wpE (performing uuids) (next value) Q after) :
    wpE (performing uuids) (call op >>= next) Q world := by
  rw [wpE_bind]
  intro choice performed
  obtain ⟨value, after, done, rest⟩ := goes choice performed
  rw [done]
  exact rest

theorem emit_performed {choice : Choice} {event : Event}
    (performed : choice.outcome = .performed) : exec uuids choice world (.emit event) =
      (.ok (), { world.later choice.elapsed with events := world.events ++ [event] }) := by
  rw [exec_performed performed]
  rfl

theorem link_performed {choice : Choice} (performed : choice.outcome = .performed)
    (reads : uuids.read userId = some userId) (reads' : uuids.read writerId = some writerId) :
    exec uuids choice world (.findWriterLink userId writerId) =
      (.ok (world.writers.find? (userId, writerId)), world.later choice.elapsed) := by
  rw [exec_performed performed, World.perform, World.pair, World.read, World.read, reads, reads']
  rfl

/-- The application whose id is the user's. -/
def World.Named (world : World) (userId : String) : Prop :=
  ∃ application ∈ world.applications.find? userId,
    application.userId = userId ∧ application.status = .approved

/-- Whoever is not named so is refused. -/
theorem addWriter_refused (dto : CreatePublisherWriterDto)
    (reads : uuids.read userId = some userId) (unnamed : ¬ world.Named userId) :
    wpE (performing uuids) (PublishersService.addWriter userId dto)
      (fun result _ => ∀ link, result ≠ .ok link) world := by
  rw [PublishersService.addWriter, wpE_bind]
  refine wpE_answered fun choice performed => ⟨_, _, find_performed performed reads, ?_⟩
  cases found : world.applications.find? userId with
  | none => exact fun link => nofun
  | some application =>
    dsimp only [wpE_pure]
    split
    · exact fun link => nofun
    · rename_i own
      split
      · exact fun link => nofun
      · rename_i approved
        exact absurd ⟨application, found, not_not.mp own, not_not.mp approved⟩ unnamed

theorem reference_ok {text : String} (reads : uuids.read text = some text)
    (user : (world.auth.findById text).isSome) : world.reference uuids text = .ok text := by
  rw [World.reference, World.read, reads]
  exact if_pos user

/-- A link of a pair that has none is found once it is inserted. -/
theorem find?_insert? {links : Keyed PublisherWriter PublisherWriter.pair} (row : PublisherWriter)
    (absent : links.find? row.pair = none) :
    ∃ after, links.insert? row = some after ∧ after.find? row.pair = some row := by
  have free : row.pair ∉ links.rows.map PublisherWriter.pair := by
    intro taken
    obtain ⟨other, member, same⟩ := List.mem_map.mp taken
    exact List.find?_eq_none.mp absent other member (decide_eq_true same)
  refine ⟨_, dif_neg free, ?_⟩
  rw [Keyed.find?, List.find?_append, show links.rows.find? _ = none from absent]
  simp

theorem insert_performed (world : World) (data : NewPublisherWriter) {choice : Choice}
    (performed : choice.outcome = .performed)
    (publisher : (world.later choice.elapsed).reference uuids data.publisherId =
      .ok data.publisherId)
    (writer : (world.later choice.elapsed).reference uuids data.writerId = .ok data.writerId)
    (unlinked : world.writers.find? (data.publisherId, data.writerId) = none) :
    ∃ row after, exec uuids choice world (.insertWriterLink data) = (.ok row, after) ∧
      after.writers.find? (data.publisherId, data.writerId) = some row := by
  let time := (world.later choice.elapsed).auth.clock
  let row : PublisherWriter := { data with id := choice.random, createdAt := time, updatedAt := time }
  obtain ⟨writers, inserted, found⟩ := find?_insert? row unlinked
  rw [exec_performed performed, World.perform, World.insertWriterLink]
  simp only [publisher, writer, bind, Except.bind]
  refine ⟨row, { world.later choice.elapsed with writers }, ?_, found⟩
  rw [show (world.later choice.elapsed).writers.insert? _ = some writers from inserted]
  rfl

/-- Whoever is named so gets the link. -/
theorem addWriter_adds {dto : CreatePublisherWriterDto} (reads : uuids.read userId = some userId)
    (reads' : uuids.read dto.writerId = some dto.writerId)
    (user : (world.auth.findById userId).isSome)
    (writer : (world.auth.findById dto.writerId).isSome)
    (unlinked : world.writers.find? (userId, dto.writerId) = none) (named : world.Named userId) :
    wpE (performing uuids) (PublishersService.addWriter userId dto)
      (fun result after => ∃ link, result = .ok link ∧
        after.writers.find? (userId, dto.writerId) = some link) world := by
  obtain ⟨application, found, own, approved⟩ := named
  rw [PublishersService.addWriter, wpE_bind]
  refine wpE_answered fun choice performed => ⟨_, _, find_performed performed reads, ?_⟩
  rw [Option.mem_def.mp found]
  dsimp only [wpE_pure]
  rw [if_neg (not_not.mpr own), if_neg (not_not.mpr approved), wpE_bind]
  refine wpE_answered fun again performed' => ⟨_, _, link_performed performed' reads reads', ?_⟩
  have absent : ((world.later choice.elapsed).writers.find? (userId, dto.writerId)) = none :=
    unlinked
  rw [absent]
  intro last performed''
  let data : NewPublisherWriter :=
    { publisherId := userId, writerId := dto.writerId
      commissionRate := (dto.commissionRate.orNull.map fun rate => (rate.val : Int)).getD 15
      status := "active", notes := dto.notes.orNull }
  obtain ⟨row, after, inserted, linked⟩ := insert_performed
    ((world.later choice.elapsed).later again.elapsed) data performed''
    (reference_ok reads user) (reference_ok reads' writer) unlinked
  rw [show exec uuids last _ _ = (.ok row, after) from inserted]
  refine wpE_answered fun announced performed₃ => ⟨_, _, emit_performed performed₃, ?_⟩
  exact ⟨row, rfl, linked⟩

theorem updateWriterLink_acts {link : PublisherWriter} (dto : UpdatePublisherWriterDto)
    (reads : uuids.read userId = some userId) (reads' : uuids.read writerId = some writerId)
    (linked : world.writers.find? (userId, writerId) = some link) :
    wpE (performing uuids) (PublishersService.updateWriterLink userId writerId dto)
      (fun result after => (∃ e, result = .error e ∧ after.writers = world.writers) ∨
        ∃ now updated, link.update dto now = .ok updated ∧ result = .ok updated ∧
          after.writers.rows = world.writers.rows.map fun row =>
            if row.pair = (userId, writerId) then
              { updated with publisherId := row.publisherId, writerId := row.writerId }
            else row) world := by
  rw [PublishersService.updateWriterLink, wpE_bind]
  refine wpE_answered fun choice performed => ⟨_, _, link_performed performed reads reads', ?_⟩
  rw [linked]
  dsimp only [wpE_pure]
  rw [wpE_bind]
  have linked' : ((world.later choice.elapsed)).writers.find? (userId, writerId) = some link :=
    linked
  generalize start : world.later choice.elapsed = begun at linked'
  have same : begun.writers = world.writers := by rw [← start]; rfl
  have written (again : Choice) (performed' : again.outcome = .performed) :
      exec uuids again begun (.updateWriterLink userId writerId dto) =
        match link.update dto (begun.later again.elapsed).auth.clock with
        | .error e => (.error (.drizzle e), begun.later again.elapsed)
        | .ok updated => (.ok (some updated), { begun.later again.elapsed with
            writers := begun.writers.modify (userId, writerId) (fun row =>
              { updated with publisherId := row.publisherId, writerId := row.writerId })
              fun _ => rfl }) := by
    have found : (begun.later again.elapsed).writers.find? (userId, writerId) = some link := linked'
    rw [exec_performed performed', World.perform, World.updateWriterLink, World.pair, World.read,
      World.read, reads, reads']
    simp only [bind, Except.bind, pure, Except.pure]
    rw [found]
    dsimp only
    cases link.update dto (begun.later again.elapsed).auth.clock <;> rfl
  rw [PublishersRepository.updateWriterLink, wpE_bind]
  intro again performed'
  rw [written again performed']
  cases updates : link.update dto (begun.later again.elapsed).auth.clock with
  | error e => exact Or.inl ⟨_, rfl, same⟩
  | ok updated =>
    refine wpE_answered fun last performed₃ => ⟨_, _, emit_performed performed₃, ?_⟩
    refine Or.inr ⟨_, updated, updates, rfl, ?_⟩
    rw [← same]
    rfl

theorem removeWriter_acts {link : PublisherWriter} (reads : uuids.read userId = some userId)
    (reads' : uuids.read writerId = some writerId)
    (linked : world.writers.find? (userId, writerId) = some link) :
    wpE (performing uuids) (PublishersService.removeWriter userId writerId)
      (fun result after => result = .ok () ∧ after.writers.rows =
        world.writers.rows.filter fun row => row.pair ≠ (userId, writerId)) world := by
  rw [PublishersService.removeWriter, wpE_bind]
  refine wpE_answered fun choice performed => ⟨_, _, link_performed performed reads reads', ?_⟩
  rw [linked]
  have erased (again : Choice) (performed' : again.outcome = .performed) :
      exec uuids again (world.later choice.elapsed) (.deleteWriterLink userId writerId) =
        (.ok (), { (world.later choice.elapsed).later again.elapsed with
          writers := world.writers.erase (userId, writerId) }) := by
    rw [exec_performed performed', World.perform, World.pair, World.read, World.read, reads, reads']
    rfl
  refine wpE_answered fun again performed' => ⟨_, _, erased again performed', ?_⟩
  exact fun last performed₃ => by
    rw [emit_performed performed₃]
    exact ⟨rfl, rfl⟩

theorem link_routes (reads : uuids.read userId = some userId)
    (reads' : uuids.read writerId = some writerId) : LinkRoutes uuids userId writerId where
  updates choices world link dto performed linked := by
    rcases Program.eval_of_wp (updateWriterLink_acts dto reads reads' linked) performed with
      ⟨e, thrown, same⟩ | acts
    · exact Or.inl ⟨e, Prod.ext thrown rfl, same⟩
    · exact Or.inr acts
  removes choices world link performed linked :=
    Program.eval_of_wp (removeWriter_acts reads reads' linked) performed

end Writers

/-- The route adds a writer exactly for who is approved, if and only if an approved application
has the id of its user. -/
theorem writers_added_by_publishers (uuids : Uuids) (choices : Nat → Choice) (world : World)
    (userId : String) (dto : CreatePublisherWriterDto)
    (performed : ∀ n, (choices n).outcome = .performed)
    (reads : uuids.read userId = some userId)
    (reads' : uuids.read dto.writerId = some dto.writerId)
    (user : (world.auth.findById userId).isSome)
    (writer : (world.auth.findById dto.writerId).isSome)
    (unlinked : world.writers.find? (userId, dto.writerId) = none) :
    ((Adds uuids choices world userId dto ↔ world.Approved userId) ∧
        LinkRoutes uuids userId dto.writerId) ↔
      ∀ application ∈ world.applications.rows, application.userId = userId →
        application.status = .approved → application.id = userId := by
  have adds : Adds uuids choices world userId dto ↔ world.Named userId := by
    constructor
    · rintro ⟨link, added, -⟩
      by_contra unnamed
      exact Program.eval_of_wp (addWriter_refused dto reads unnamed) performed link added
    · intro named
      exact Program.eval_of_wp (addWriter_adds reads reads' user writer unlinked named) performed
  rw [adds, and_iff_left (link_routes reads reads')]
  constructor
  · intro exactly application member own approved
    obtain ⟨other, found, own', -⟩ := exactly.mpr ⟨application, member, own, approved⟩
    have same := List.inj_on_of_nodup_map world.applications.distinct member
      (List.mem_of_find?_eq_some found) (own.trans own'.symm)
    rw [same]
    simpa using List.find?_some found
  · intro ids
    constructor
    · rintro ⟨application, found, own, approved⟩
      exact ⟨application, List.mem_of_find?_eq_some found, own, approved⟩
    · rintro ⟨application, member, own, approved⟩
      have named := ids application member own approved
      refine ⟨application, ?_, own, approved⟩
      have some : (world.applications.find? userId).isSome := by
        rw [Keyed.find?, List.find?_isSome]
        exact ⟨application, member, decide_eq_true named⟩
      obtain ⟨row, found⟩ := Option.isSome_iff_exists.mp some
      exact (Keyed.eq_of_find? found member named) ▸ found

/-- The application of the user is approved, under an id of its own. -/
def approvedReader : World :=
  { applied with
    applications := ⟨⟨[{ submitted with status := .approved }], List.nodup_singleton _⟩,
      List.nodup_singleton _⟩ }

theorem approved_reader_refused : ¬ ((Adds .plain (fun _ => {}) approvedReader "reader"
      { writerId := "officer" } ↔ approvedReader.Approved "reader") ∧
    LinkRoutes .plain "reader" "officer") := by
  rintro ⟨adds, -⟩
  obtain ⟨link, added, -⟩ := adds.mpr ⟨{ submitted with status := .approved },
    List.mem_singleton_self _, rfl, rfl⟩
  have unnamed : ¬ approvedReader.Named "reader" := fun ⟨_, found, _⟩ => nomatch found
  exact Program.eval_of_wp (addWriter_refused _ rfl unnamed) (fun _ => rfl) link added

/-- Whose application has the id of the user gets the link. -/
theorem approved_reader_added :
    let world := { approvedReader with
      applications := ⟨⟨[{ submitted with status := .approved, id := "reader" }],
        List.nodup_singleton _⟩, List.nodup_singleton _⟩ }
    Adds .plain (fun _ => {}) world "reader" { writerId := "officer" } ↔ world.Approved "reader" :=
  ((writers_added_by_publishers .plain (fun _ => {}) _ "reader" { writerId := "officer" }
    (fun _ => rfl) rfl rfl (by decide) (by decide) rfl).mpr (by decide)).1

end Publishers
