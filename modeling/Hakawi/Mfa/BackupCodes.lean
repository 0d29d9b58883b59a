import Hakawi.Mfa.Service

/-!
# Each backup code once

The list of codes is read, searched and written back as a whole, so what another call has written
in between is lost: a code that was used or replaced is back on the list. The calls are any number,
interleaved.
-/

namespace Mfa
open Common Effects

namespace World

/-- No code passes a verification after it has passed one or was replaced or discarded. -/
def Once (world : World) : Prop :=
  world.marks.Pairwise fun first second => second.isVerified = true →
    first.serial ≠ second.serial

instance (world : World) : Decidable world.Once := inferInstanceAs (Decidable (List.Pairwise _ _))

/-- The codes on the list have not ended, and what comes new is new. -/
structure Sound (world : World) : Prop where
  once : world.Once
  unmarked : ∀ mark ∈ world.marks, mark.serial ∉ serials world.listed.codes
  marked : ∀ mark ∈ world.marks, mark.serial ∈ world.issued
  listed : ∀ serial ∈ serials world.listed.codes, serial ∈ world.issued
  below : ∀ serial ∈ world.issued, serial < world.next

end World

/-- A verification takes a code off the list that it has read, and the codes of a setup are put on
the list once. -/
def Undisturbed (choice : Choice) (world : World) : Call → Prop
  | .spend read _ => choice.outcome ≠ .refused → world.listed.codes = read.codes
  | .install codes => choice.outcome ≠ .refused → ∀ serial ∈ serials codes.codes,
      serial ∉ world.issued
  | _ => True

instance (choice : Choice) (world : World) (op : Call) :
    Decidable (Undisturbed choice world op) := by
  cases op <;> unfold Undisturbed <;> infer_instance

section Steps
variable {world : World}

theorem lt_bound {codes : BackupCodes} {next : Nat} :
    next ≤ World.bound codes next ∧
      ∀ serial ∈ serials codes.codes, serial < World.bound codes next := by
  rw [World.bound]
  induction serials codes.codes with
  | nil => exact ⟨Nat.le_refl _, fun _ never => by cases never⟩
  | cons serial rest ih =>
    refine ⟨ih.1.trans (Nat.le_max_right _ _), fun other member => ?_⟩
    rcases List.mem_cons.mp member with rfl | later
    · exact Nat.lt_of_succ_le (Nat.le_max_left _ _)
    · exact (ih.2 other later).trans_le (Nat.le_max_right _ _)

theorem mem_discardAll {mark : Mark} : mark ∈ world.discardAll ↔
    mark ∈ world.marks ∨ ∃ serial ∈ serials world.listed.codes, mark = .discarded serial := by
  simp only [World.discardAll, List.mem_append, List.mem_map, eq_comm]

theorem once_discardAll (once : world.Once) : world.discardAll.Pairwise fun first second =>
    second.isVerified = true → first.serial ≠ second.serial := by
  refine List.pairwise_append.mpr ⟨once, ?_, ?_⟩
  · refine List.pairwise_of_forall_mem_list fun first _ second member => ?_
    obtain ⟨serial, -, rfl⟩ := List.mem_map.mp member
    exact nofun
  · intro first _ second member
    obtain ⟨serial, -, rfl⟩ := List.mem_map.mp member
    exact nofun

/-- All marks are of codes that were issued, also when the list is discarded. -/
theorem World.Sound.marked_discardAll (sound : world.Sound) :
    ∀ mark ∈ world.discardAll, mark.serial ∈ world.issued := by
  intro mark member
  rcases mem_discardAll.mp member with old | ⟨serial, listed, rfl⟩
  · exact sound.marked mark old
  · exact sound.listed serial listed

/-- Codes that were never issued take the place of the list. -/
theorem World.Sound.install (sound : world.Sound) {codes : BackupCodes}
    (fresh : ∀ serial ∈ serials codes.codes, serial ∉ world.issued) :
    (world.install codes).Sound where
  once := once_discardAll sound.once
  unmarked mark member listed := fresh mark.serial listed (sound.marked_discardAll mark member)
  marked mark member := List.mem_append_left _ (sound.marked_discardAll mark member)
  listed _ member := List.mem_append_right _ member
  below serial member := by
    rcases List.mem_append.mp member with old | new
    · exact (sound.below serial old).trans_le lt_bound.1
    · exact lt_bound.2 serial new

theorem World.Sound.discard (sound : world.Sound) :
    World.Sound { world with codes := none, marks := world.discardAll } where
  once := once_discardAll sound.once
  unmarked _ _ := List.not_mem_nil
  marked := sound.marked_discardAll
  listed _ never := by cases never
  below := sound.below

/-- A code that is taken off a list is on it no more. -/
theorem not_mem_splice {codes : BackupCodes} {i : Nat} {code : BackupCode}
    (found : codes.codes[i]? = some code) : code.serial ∉ serials (codes.splice i).codes := by
  have here : (serials codes.codes)[i]? = some code.serial := by
    rw [List.getElem?_map, found]
    rfl
  obtain ⟨below, same⟩ := List.getElem?_eq_some_iff.mp here
  rw [serials, BackupCodes.splice, ← List.eraseIdx_map, ← codes.distinct.erase_getElem i below, same]
  exact codes.distinct.not_mem_erase

theorem mem_of_mem_splice {codes : BackupCodes} {i serial : Nat}
    (member : serial ∈ serials (codes.splice i).codes) : serial ∈ serials codes.codes := by
  rw [serials, BackupCodes.splice, ← List.eraseIdx_map] at member
  exact List.mem_of_mem_eraseIdx member

/-- A code of the list that is stored is taken off it. -/
theorem World.Sound.spend (sound : world.Sound) {read : BackupCodes} {i : Nat} {expiresAt : Int}
    (same : world.listed.codes = read.codes) :
    World.Sound { world with
      codes := some (read.splice i, expiresAt)
      marks := world.marks ++ (read.codes[i]?.map fun code => .verified code.serial).toList } := by
  have spent : ∀ mark ∈ (read.codes[i]?.map fun code => Mark.verified code.serial).toList,
      ∃ code, read.codes[i]? = some code ∧ mark = .verified code.serial := by
    intro mark member
    obtain ⟨code, found, rfl⟩ := Option.map_eq_some_iff.mp (Option.mem_toList.mp member)
    exact ⟨code, found, rfl⟩
  have listed {code : BackupCode} (found : read.codes[i]? = some code) :
      code.serial ∈ serials world.listed.codes :=
    same ▸ List.mem_map_of_mem (List.mem_of_getElem? found)
  constructor
  · refine List.pairwise_append.mpr ⟨sound.once, ?_, ?_⟩
    · cases read.codes[i]? with
      | none => exact List.Pairwise.nil
      | some code => exact List.pairwise_singleton _ _
    · intro first old second member _ equal
      obtain ⟨code, found, rfl⟩ := spent second member
      exact sound.unmarked first old (equal ▸ listed found)
  · intro mark member remains
    have before : mark.serial ∈ serials world.listed.codes := same ▸ mem_of_mem_splice remains
    rcases List.mem_append.mp member with old | new
    · exact sound.unmarked mark old before
    · obtain ⟨code, found, rfl⟩ := spent mark new
      exact not_mem_splice found remains
  · intro mark member
    rcases List.mem_append.mp member with old | new
    · exact sound.marked mark old
    · obtain ⟨code, found, rfl⟩ := spent mark new
      exact sound.listed _ (listed found)
  · exact fun serial remains => sound.listed serial (same ▸ mem_of_mem_splice remains)
  · exact sound.below

theorem World.Sound.later (sound : world.Sound) (elapsed : Nat) :
    World.Sound { world with clock := world.clock + elapsed } :=
  ⟨sound.once, sound.unmarked, sound.marked, sound.listed, sound.below⟩

theorem perform_sound (choice : Choice) (sound : world.Sound) {op : Call}
    (carried : op.mayFail = true → choice.outcome ≠ .refused)
    (undisturbed : Undisturbed choice world op) : (world.perform choice op).2.Sound := by
  cases op with
  | install codes => exact sound.install (undisturbed (carried rfl))
  | replace texts =>
    refine sound.install fun serial new old => ?_
    obtain ⟨code, member, rfl⟩ := List.mem_map.mp new
    exact absurd (sound.below _ old) (Nat.not_lt.mpr (BackupCodes.le_serial member).1)
  | spend read i => exact sound.spend (undisturbed (carried rfl))
  | delCodes => exact sound.discard
  | setSetup secret texts =>
    refine ⟨sound.once, sound.unmarked, sound.marked, sound.listed, fun serial old => ?_⟩
    exact Nat.lt_add_right _ (sound.below serial old)
  | _ => exact ⟨sound.once, sound.unmarked, sound.marked, sound.listed, sound.below⟩

theorem exec_sound (choice : Choice) (world : World) (op : Call) (sound : world.Sound)
    (undisturbed : Undisturbed choice world op) : (exec choice world op).2.Sound := by
  have later := sound.later choice.elapsed
  rw [exec]
  split
  · exact later
  · rename_i lost
    exact perform_sound choice later (fun _ => by rw [lost]; exact nofun) undisturbed
  · rename_i carried _
    exact perform_sound choice later (fun fails refused => carried fails refused) undisturbed

end Steps

section Alone
variable {world : World}

/-- The execution, where every call is to be undisturbed. -/
abbrev quietly : Program.OpSpec Call Call.Answer World := Pool.guarded exec Undisturbed

theorem wpE_call {β : Type} {op : Call} {next : op.Value → Method β}
    (met : ∀ choice, Undisturbed choice world op)
    (goes : ∀ choice value, (exec choice world op).1 = .ok value →
      wpE quietly (next value) (fun _ _ => True) (exec choice world op).2) :
    wpE quietly (call op >>= next) (fun _ _ => True) world := by
  rw [wpE_bind]
  intro choice
  refine ⟨met choice, ?_⟩
  simp only [Program.wp_done]
  cases answered : (exec choice world op).1 with
  | ok value => exact goes choice value answered
  | error e => trivial

/-- The calls that write no codes that were read before. -/
def Call.Plain : Call → Prop
  | .spend _ _ | .install _ => False
  | _ => True

theorem wpE_plain {β : Type} {p : Method β} (only : OnlyE Call.Plain p) :
    wpE quietly p (fun _ _ => True) world := by
  have meets (choice : Choice) (before : World) (op : Call) (plain : op.Plain) :
      Undisturbed choice before op := by
    cases op with
    | spend _ _ | install _ => exact plain.elim
    | _ => trivial
  exact Pool.guarded_of_only only.only meets (fun _ _ _ _ _ => trivial) trivial

/-- A call that only answers leaves everything but the time. -/
theorem exec_answers {choice : Choice} {op : Call} {value : op.Value}
    (answered : (exec choice world op).1 = .ok value) :
    exec choice world op =
      World.perform choice { world with clock := world.clock + choice.elapsed } op := by
  rw [exec] at answered ⊢
  split at answered
  · cases answered
  · cases answered
  · rfl

theorem onlyE_call {A : Call → Prop} {op : Call} (holds : A op) : OnlyE A (call op) :=
  ⟨⟨holds, fun _ => trivial⟩⟩

namespace MfaService

theorem verifyToken_quietly (token : String) :
    wpE quietly (verifyToken token) (fun _ _ => True) world := by
  refine wpE_call (fun _ => trivial) fun _ user _ => ?_
  cases enabledSecret user with
  | none => trivial
  | some secret =>
    refine wpE_call (fun _ => trivial) fun _ passed _ => ?_
    cases passed with
    | true => trivial
    | false =>
      refine wpE_call (fun _ => trivial) fun choice stored answered => ?_
      have carried := exec_answers answered
      rw [carried] at answered ⊢
      cases stored with
      | none => trivial
      | some storedCodes =>
        simp only [verifyBackupCode]
        split
        · trivial
        · refine wpE_call (fun _ _ => ?_) fun _ _ _ => trivial
          obtain ⟨cell, live, rfl⟩ := Option.map_eq_some_iff.mp (Except.ok.inj answered)
          have stored := (Option.filter_eq_some_iff.mp live).1
          simp only [World.perform, World.listed]
          rw [stored]
          rfl

theorem initiateSetup_plain : OnlyE Call.Plain initiateSetup := by
  refine OnlyE.bind (onlyE_call trivial) fun found => ?_
  cases found with
  | none => exact onlyE_throw _
  | some user =>
    simp only
    split
    · exact onlyE_throw _
    · refine OnlyE.bind (onlyE_call trivial) fun _ => OnlyE.bind (onlyE_call trivial) fun _ => ?_
      exact OnlyE.bind (onlyE_call trivial) fun _ => onlyE_pure _

theorem disableMfa_plain : OnlyE Call.Plain disableMfa := by
  refine OnlyE.bind (onlyE_call trivial) fun found => ?_
  cases found with
  | none => exact onlyE_throw _
  | some user =>
    simp only
    split
    · refine OnlyE.bind (onlyE_call trivial) fun _ => OnlyE.bind (onlyE_call trivial) fun _ => ?_
      exact OnlyE.bind (onlyE_call trivial) fun _ => onlyE_call trivial
    · exact onlyE_throw _

theorem regenerateBackupCodes_plain : OnlyE Call.Plain regenerateBackupCodes := by
  refine OnlyE.bind (onlyE_call trivial) fun found => ?_
  cases found with
  | none => exact onlyE_throw _
  | some user =>
    simp only
    split
    · refine OnlyE.bind (onlyE_call trivial) fun _ => ?_
      exact OnlyE.bind (onlyE_call trivial) fun _ => onlyE_pure _
    · exact onlyE_throw _

/-- A setup that is completed for the first time. -/
theorem completeSetup_quietly (token : String) (fresh : ∀ stored ∈ world.setup,
    ∀ serial ∈ serials stored.1.backupCodes.codes, serial ∉ world.issued) :
    wpE quietly (completeSetup token) (fun _ _ => True) world := by
  refine wpE_call (fun _ => trivial) fun choice setup answered => ?_
  have carried := exec_answers answered
  rw [carried] at answered ⊢
  cases setup with
  | none => trivial
  | some stored =>
    obtain ⟨cell, live, rfl⟩ := Option.map_eq_some_iff.mp (Except.ok.inj answered)
    have new := fresh cell (Option.filter_eq_some_iff.mp live).1
    refine wpE_call (fun _ => trivial) fun _ passed answered' => ?_
    rw [exec_answers answered']
    cases passed with
    | false => trivial
    | true =>
      refine wpE_call (fun _ => trivial) fun _ _ answered'' => ?_
      rw [exec_answers answered'']
      refine wpE_call (fun _ _ => new) fun _ _ _ => wpE_plain ?_
      refine OnlyE.bind (onlyE_call trivial) fun _ => ?_
      exact OnlyE.bind (onlyE_call trivial) fun _ => onlyE_pure _

end MfaService

/-- The codes of a setup have not been put on the list before. -/
def Operation.First (world : World) : Operation → Prop
  | .completeSetup _ => ∀ stored ∈ world.setup,
      ∀ serial ∈ serials stored.1.backupCodes.codes, serial ∉ world.issued
  | _ => True

theorem Operation.quietly {operation : Operation} (first : operation.First world) :
    wpE Mfa.quietly operation.run (fun _ _ => True) world := by
  have alone {α : Type} {p : Method α} (holds : wpE Mfa.quietly p (fun _ _ => True) world) :
      wpE Mfa.quietly (do let _ ← p) (fun _ _ => True) world :=
    wpE_seq (Pool.guarded_monotone _) holds (fun _ _ _ => trivial) fun _ _ _ => trivial
  cases operation with
  | initiateSetup => exact alone (wpE_plain MfaService.initiateSetup_plain)
  | completeSetup token => exact alone (MfaService.completeSetup_quietly token first)
  | verifyToken token => exact alone (MfaService.verifyToken_quietly token)
  | disableMfa => exact wpE_plain MfaService.disableMfa_plain
  | regenerateBackupCodes => exact alone (wpE_plain MfaService.regenerateBackupCodes_plain)

end Alone

/-- In any interleaving no code passes a verification after it has passed one or was replaced or
discarded, as long as a verification takes its code off the list that it has read and no setup is
completed twice. That is so for an operation that no other one interferes with. -/
theorem codes_once {start : World} (sound : start.Sound) :
    (∀ operations schedule, Pool.EachCall exec Undisturbed schedule (pool start operations) →
      ((pool start operations).run exec schedule).state.Once) ∧
    ∀ operation : Operation, operation.First start → ∀ schedule,
      Pool.EachCall exec Undisturbed schedule (pool start [operation]) := by
  constructor
  · intro operations schedule undisturbed
    have kept : ((pool start operations).run exec schedule).state.Sound :=
      Pool.eachCall_invariant exec exec_sound sound undisturbed
    exact kept.once
  · intro operation first schedule
    exact Pool.eachCall_alone (operation.quietly first) schedule

section Examples

/-- A user with two backup codes. -/
def World.protected : World :=
  ⟨0, some ⟨true, some "secret"⟩, none, some (.numbered 0 ["3F2A91C0", "77D05E1B"],
    BACKUP_CODES_TTL * 1000), [], [], [0, 1], 2⟩

theorem protected_sound : World.protected.Sound where
  once := List.Pairwise.nil
  unmarked _ never := nomatch never
  marked _ never := nomatch never
  listed := by decide
  below := by decide

def turns (threads : List Nat) : List (Nat × Choice) := threads.map fun i => (i, {})

def verifies : List Operation := [.verifyToken "3F2A91C0", .verifyToken "77D05E1B"]

theorem codes_once_each :
    ((pool .protected verifies).run exec (turns [0, 0, 0, 0, 1, 1, 1, 1])).state.Once :=
  (codes_once protected_sound).1 verifies _ (by decide)

/-- Two verifications with one code, both of which read the list before either writes it: both
pass. And one that reads the list before it is replaced brings a replaced code back, which then
passes. -/
theorem codes_twice :
    ((pool .protected [.verifyToken "3F2A91C0", .verifyToken "3F2A91C0"]).run exec
      (turns [0, 0, 0, 1, 1, 1, 0, 1])).state.marks = [.verified 0, .verified 0] ∧
    ¬ ((pool .protected [.verifyToken "3F2A91C0", .verifyToken "3F2A91C0"]).run exec
      (turns [0, 0, 0, 1, 1, 1, 0, 1])).state.Once ∧
    ((pool .protected [.verifyToken "3F2A91C0", .regenerateBackupCodes,
      .verifyToken "77D05E1B"]).run exec
        (turns [0, 0, 0, 1, 1, 1, 0, 2, 2, 2, 2])).state.marks =
      [.discarded 0, .discarded 1, .verified 0, .verified 1] := by
  decide

end Examples
end Mfa
