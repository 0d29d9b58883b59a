import Hakawi.Waf.Protocol

/-!
# Permanent blocks

Any number of requests and calls of the blocklist, their commands in any order and
failing in any way. A permanent record has no time to live and no command of these
methods touches it but two: the deletion that only `unblock` makes, and another
record for the same address, which replaces it whatever its kind.
-/

namespace Waf
open Html Common Effects

/-- What is asked of the firewall or of its blocklist. -/
inductive Operation where
  | request (waf : WafMiddleware) (incoming : Request)
  | block (ip : Units) (options : BlockOptions)
  | unblock (ip : Units)
  | isBlocked (ip : Units)
  | listBlocked
  | recordViolation (ip : Units) (windowSeconds : Int)
  | countViolations (ip : Units)
  | clearViolations (ip : Units)

def Operation.run : Operation → Calls Units Unit
  | .request waf incoming => do let _ ← waf.decide incoming
  | .block ip options => do let _ ← IpBlocklist.block ip options
  | .unblock ip => do let _ ← IpBlocklist.unblock ip
  | .isBlocked ip => do let _ ← IpBlocklist.isBlocked ip
  | .listBlocked => do let _ ← IpBlocklist.listBlocked
  | .recordViolation ip windowSeconds => do let _ ← IpBlocklist.recordViolation ip windowSeconds
  | .countViolations ip => do let _ ← IpBlocklist.countViolations ip
  | .clearViolations ip => IpBlocklist.clearViolations ip

abbrev Operations : Type :=
  Pool (ValkeyWorld Units) (Call Units) CallResult (Except Failure Unit)

def begin (world : ValkeyWorld Units) (operations : List Operation) : Operations :=
  ⟨world, operations.map fun operation => operation.run.run⟩

theorem returns_operation (operation : Operation) : Returns operation.run := by
  cases operation with
  | request waf incoming => exact .bind (waf.returns_decide incoming) fun _ => .pure ()
  | block ip options => exact .bind (IpBlocklist.returns_block ip options) fun _ => .pure ()
  | unblock ip => exact .bind (IpBlocklist.returns_unblock ip) fun _ => .pure ()
  | isBlocked ip => exact .bind (IpBlocklist.returns_isBlocked ip) fun _ => .pure ()
  | listBlocked => exact .bind IpBlocklist.returns_listBlocked fun _ => .pure ()
  | recordViolation ip seconds =>
    exact .bind (IpBlocklist.returns_recordViolation ip seconds) fun _ => .pure ()
  | countViolations ip => exact .bind (IpBlocklist.returns_countViolations ip) fun _ => .pure ()
  | clearViolations ip => exact IpBlocklist.returns_clearViolations ip

/-- What `block` writes, `isBlocked` reads. -/
theorem parseBlockRecord_toJson (ip : Units) (record : BlockRecord) :
    parseBlockRecord ip (.json record.toJson) = some { record with ip := ip } := by
  rcases record with ⟨ip', kind, reason, ruleId, blockedAt, expiresAt⟩
  cases kind <;> cases ruleId <;> cases expiresAt <;> rfl

theorem blockKey_injective {ip ip' : Units} (same : blockKey ip = blockKey ip') : ip = ip' :=
  List.append_cancel_left same

/-- The two kinds of keys differ at their eighth unit. -/
theorem blockKey_ne_violationKey (ip ip' : Units) : blockKey ip ≠ violationKey ip' := by
  intro same
  have letters := congrArg (fun key => key[7]?) same
  cases letters

/-- A permanent record of the address is in the store. -/
def PermanentlyBlocked (ip : Units) (store : Valkey Units) : Prop :=
  ∃ record : BlockRecord, record.kind = .permanent ∧
    store.entries (blockKey ip) = some ⟨.text (.json record.toJson), none⟩

/-- The call puts a temporary record in the place of the one the address has. -/
def storesTemporary (ip : Units) : Call Units → Bool
  | .valkey (.set key value _) =>
    key = blockKey ip && (parseBlockRecord ip value).any fun record => record.kind = .temporary
  | _ => false

/-- The call is the deletion by which `unblock` releases the address. -/
def releases (ip : Units) : Call Units → Bool
  | .valkey (.del key) => key = blockKey ip
  | _ => false

/-- The call is not performed, or it leaves the address a permanent record. -/
def Keeps (ip : Units) (choice : Choice) (_ : ValkeyWorld Units) (call : Call Units) : Prop :=
  choice.outcome = .refused ∨ (storesTemporary ip call = false ∧ releases ip call = false)

instance (ip : Units) (choice : Choice) (world : ValkeyWorld Units) (call : Call Units) :
    Decidable (Keeps ip choice world call) := inferInstanceAs (Decidable (_ ∨ _))

section Step
variable {ip : Units} {store : Valkey Units} {now : Int}

theorem PermanentlyBlocked.frame {command : Command Units}
    (permanent : PermanentlyBlocked ip store) (different : blockKey ip ≠ command.key) :
    PermanentlyBlocked ip (store.exec now command).2 := by
  obtain ⟨record, kind, entry⟩ := permanent
  refine ⟨record, kind, ?_⟩
  rw [Valkey.exec_frame command different, entry]

variable (now) in
theorem PermanentlyBlocked.live (permanent : PermanentlyBlocked ip store) :
    ∃ record : BlockRecord, record.kind = .permanent ∧
      store.live now (blockKey ip) = some ⟨.text (.json record.toJson), none⟩ := by
  obtain ⟨record, kind, entry⟩ := permanent
  refine ⟨record, kind, Valkey.live_eq_some.mpr ⟨entry, ?_⟩⟩
  rintro time ⟨⟩

/-- The index is a set; where its key is an address, a text under it refuses members. -/
theorem PermanentlyBlocked.sadd (permanent : PermanentlyBlocked ip store) (member : Units) :
    PermanentlyBlocked ip (store.exec now (.sadd INDEX_KEY member)).2 := by
  by_cases same : blockKey ip = INDEX_KEY
  · obtain ⟨record, kind, found⟩ := permanent.live now
    rw [same] at found
    rw [Valkey.exec, Valkey.sadd, found]
    exact permanent
  · exact permanent.frame same

theorem PermanentlyBlocked.srem (permanent : PermanentlyBlocked ip store) (member : Units) :
    PermanentlyBlocked ip (store.exec now (.srem INDEX_KEY member)).2 := by
  by_cases same : blockKey ip = INDEX_KEY
  · obtain ⟨record, kind, found⟩ := permanent.live now
    rw [same] at found
    rw [Valkey.exec, Valkey.srem, found]
    exact permanent
  · exact permanent.frame same

theorem PermanentlyBlocked.record {ip' : Units} {record : BlockRecord} {seconds : Int}
    (permanent : PermanentlyBlocked ip store)
    (keeps : storesTemporary ip
      (.valkey (.set (blockKey ip') (.json record.toJson) (record.ttl seconds))) = false) :
    PermanentlyBlocked ip
      (store.exec now (.set (blockKey ip') (.json record.toJson) (record.ttl seconds))).2 := by
  by_cases same : ip' = ip
  · subst same
    have kind : record.kind = .permanent := by
      cases kind : record.kind with
      | permanent => rfl
      | temporary => simp [storesTemporary, parseBlockRecord_toJson, kind] at keeps
    refine ⟨record, kind, ?_⟩
    simp only [BlockRecord.ttl, kind, Valkey.exec, Valkey.set, Valkey.written,
      Valkey.put_entries_self]
  · exact permanent.frame fun key => same (blockKey_injective key).symm

theorem PermanentlyBlocked.exec {command : Command Units} (permanent : PermanentlyBlocked ip store)
    (sends : Sends (.valkey command)) (stores : storesTemporary ip (.valkey command) = false)
    (stays : releases ip (.valkey command) = false) :
    PermanentlyBlocked ip (store.exec now command).2 := by
  cases sends with
  | get | exists' | smembers => exact permanent
  | record ip' record seconds => exact permanent.record stores
  | list member => exact permanent.sadd member
  | unlist member => exact permanent.srem member
  | release ip' =>
    refine permanent.frame fun same => ?_
    change blockKey ip = blockKey ip' at same
    simp [releases, same] at stays
  | count ip' seconds => exact permanent.frame (blockKey_ne_violationKey ip ip')
  | forget ip' => exact permanent.frame (blockKey_ne_violationKey ip ip')

end Step

variable (ip : Units)

theorem permanent_preserved :
    Pool.Preserves ValkeyWorld.exec protocol
      (fun choice world _ call => Keeps ip choice world call)
      (fun world _ => PermanentlyBlocked ip world.store) := by
  intro choice world memory i u call _ permanent sends keeps
  cases call with
  | now => exact permanent
  | valkey command =>
    rcases choice with ⟨elapsed, outcome⟩
    cases outcome with
    | refused => exact permanent
    | performed =>
      obtain ⟨stores, stays⟩ := keeps.resolve_left (by rintro ⟨⟩)
      exact permanent.exec sends stores stays
    | lost =>
      obtain ⟨stores, stays⟩ := keeps.resolve_left (by rintro ⟨⟩)
      exact permanent.exec sends stores stays

/-- `isBlocked`, asked alone while the store is available. -/
def reportsBlock (elapsed : Nat) (world : ValkeyWorld Units) : Option BlockRecord :=
  match ((IpBlocklist.isBlocked ip).run.eval ValkeyWorld.exec
    (fun _ => ⟨elapsed, .performed⟩) world).1 with
  | .ok found => found
  | .error _ => none

theorem reportsBlock_of_permanent {world : ValkeyWorld Units} (nonempty : ip ≠ [])
    (permanent : PermanentlyBlocked ip world.store) (elapsed : Nat) :
    ∃ record, reportsBlock ip elapsed world = some record ∧ record.kind = .permanent := by
  obtain ⟨record, kind, found⟩ := permanent.live (world.clock + elapsed)
  have read : (ValkeyWorld.exec ⟨elapsed, .performed⟩ world (.valkey (.get (blockKey ip)))).1 =
      .ok (some (.json record.toJson)) := by
    simp only [ValkeyWorld.exec, Valkey.exec, Valkey.get, found]
    rfl
  have long : ip.length ≠ 0 := fun zero => nonempty (List.length_eq_zero_iff.mp zero)
  refine ⟨{ record with ip := ip }, ?_, kind⟩
  obtain ⟨next, shape, onText⟩ : ∃ next, (IpBlocklist.isBlocked ip).run =
      .call (.valkey (.get (blockKey ip))) next ∧
        ∀ answer raw, answer = .ok raw →
          next answer = .done (.ok (IpBlocklist.recordOf ip raw)) := by
    rw [IpBlocklist.isBlocked, if_neg long]
    exact ⟨_, rfl, by rintro answer raw rfl; rfl⟩
  rw [reportsBlock, shape, Program.eval, onText _ _ read, Program.eval, IpBlocklist.recordOf,
    Option.map_some, parseBlockRecord_toJson, Option.getD_some]

theorem follow_begin (world : ValkeyWorld Units) (operations : List Operation) :
    Pool.Follow protocol (List.replicate operations.length ()) (begin world operations) := by
  have each : ∀ thread ∈ operations.map fun operation => operation.run.run,
      protocol.Follows () thread := by
    intro thread member
    obtain ⟨operation, -, rfl⟩ := List.mem_map.mp member
    exact (returns_operation operation).stays ()
  have follow := Pool.follow_replicate each world
  rwa [List.length_map] at follow

/-- Once an address has a permanent record, it keeps one and `isBlocked` reports it at
every later time, as long as no performed call stores a temporary record for it or
releases it. -/
theorem stays_blocked (operations : List Operation) (world : ValkeyWorld Units)
    (early late : List (Nat × Choice)) (nonempty : ip ≠ [])
    (recorded : PermanentlyBlocked ip
      ((begin world operations).run ValkeyWorld.exec early).state.store)
    (kept : Pool.EachCall ValkeyWorld.exec (Keeps ip) late
      ((begin world operations).run ValkeyWorld.exec early)) (elapsed : Nat) :
    ∃ record, reportsBlock ip elapsed
        ((begin world operations).run ValkeyWorld.exec (early ++ late)).state = some record ∧
      record.kind = .permanent := by
  have always : Pool.Preserves ValkeyWorld.exec protocol (fun _ _ _ _ => True)
      fun _ _ => True := fun _ _ _ _ _ _ _ _ _ _ => trivial
  have follow := (Pool.run_invariant_always always trivial (follow_begin world operations) early).2
  have meets := Pool.meets_of_eachCall ValkeyWorld.exec protocol kept
    (Pool.recallAll ValkeyWorld.exec protocol (List.replicate operations.length ())
      (begin world operations) early)
  have permanent := (Pool.run_invariant (permanent_preserved ip) recorded follow meets).1
  rw [Pool.run_append]
  exact reportsBlock_of_permanent ip nonempty permanent elapsed

/-- Operations one after the other, `calls` calls each, a millisecond apart. -/
def inTurn (first : Nat) (calls : List Nat) : List (Nat × Choice) :=
  (calls.zipIdx first).flatMap fun (number, i) => List.replicate number (i, ⟨1, .performed⟩)

def attacker : Units := units "203.0.113.9"

theorem stays_blocked_attacker :
    ∃ record, reportsBlock attacker 1000
        ((begin ⟨0, Valkey.empty⟩
          [.block attacker ⟨"manual", none, .permanent, none, none⟩,
            .request defaultWaf (getRequest "203.0.113.9" "/?file=%00" [])]).run ValkeyWorld.exec
          (inTurn 0 [3] ++ inTurn 1 [1])).state = some record ∧
      record.kind = .permanent :=
  stays_blocked attacker
    [.block attacker ⟨"manual", none, .permanent, none, none⟩,
      .request defaultWaf (getRequest "203.0.113.9" "/?file=%00" [])]
    ⟨0, Valkey.empty⟩ (inTurn 0 [3]) (inTurn 1 [1]) (by decide)
    ⟨BlockOptions.payload ⟨"manual", none, .permanent, none, none⟩ attacker 1, rfl, rfl⟩
    (by decide) 1000

/-- Four requests with a null byte, and a fifth with a line break before it: the line
break blocks the address for ever, and the null byte, the fifth violation, puts a
block of an hour in its place. -/
theorem permanent_block_expires :
    let operations : List Operation :=
      List.replicate 4 (.request defaultWaf (getRequest "203.0.113.9" "/?file=%00" [])) ++
        [.request defaultWaf (getRequest "203.0.113.9" "/?file=%0a%00" [])]
    let recorded := (begin ⟨0, Valkey.empty⟩ operations).run ValkeyWorld.exec
      (inTurn 0 [2, 2, 2, 2, 4])
    let later := recorded.run ValkeyWorld.exec (inTurn 4 [4])
    ((reportsBlock attacker 0 recorded.state).map fun record => record.kind) = some .permanent ∧
      (reportsBlock attacker 3600000 later.state).isNone := by
  decide

end Waf
