import Hakawi.Effects.Pool
import Hakawi.Effects.Transaction
import Hakawi.Partitions.Tables
import Hakawi.Store.Keyed

/-!
# The cutover

The backfill script copies what the partitioned tables lack, the verification compares the
numbers of rows, and the migration compares them once more and drops the legacy tables. Nothing
but the numbers is compared, and the application writes to either side meanwhile.
-/

namespace Partitions.Cutover

open Effects Store

inductive PartitionedTable where
  | messages
  | notifications
  | paymentTransactions
  | reactions
  deriving DecidableEq

namespace PartitionedTable

/-- In the order of the migration and of both scripts. -/
def all : List PartitionedTable := [messages, notifications, paymentTransactions, reactions]

def label : PartitionedTable → String
  | messages => "messages"
  | notifications => "notifications"
  | paymentTransactions => "payment_transactions"
  | reactions => "reactions"

@[reducible] def Row : PartitionedTable → Type
  | messages => Message
  | notifications => Notification
  | paymentTransactions => PaymentTransaction
  | reactions => Reaction

/-- The primary key of the legacy table. -/
def id : (t : PartitionedTable) → t.Row → String
  | messages => Message.id
  | notifications => Notification.id
  | paymentTransactions => PaymentTransaction.id
  | reactions => Reaction.id

def createdAt : (t : PartitionedTable) → t.Row → Int
  | messages => Message.createdAt
  | notifications => Notification.createdAt
  | paymentTransactions => PaymentTransaction.createdAt
  | reactions => Reaction.createdAt

/-- `PRIMARY KEY (id, created_at)` -/
def key (t : PartitionedTable) (row : t.Row) : String × Int := (t.id row, t.createdAt row)

instance (t : PartitionedTable) : DecidableEq t.Row := by
  cases t <;> exact inferInstance

end PartitionedTable

/-- A legacy table, until it is dropped, and its partitioned parent. -/
structure Pair (t : PartitionedTable) where
  legacy : Option (Keyed t.Row t.id)
  partitioned : Keyed t.Row t.key
  /-- The rows that were in the legacy table when it was dropped and not in its parent. -/
  lost : List t.Row

structure World where
  pairs : (t : PartitionedTable) → Pair t
  /-- The transaction of the migration has begun. -/
  begun : Bool

namespace World

def setPair (world : World) (t : PartitionedTable) (pair : Pair t) : World :=
  { world with pairs := Function.update world.pairs t pair }

@[simp] theorem setPair_pairs_self (world : World) (t : PartitionedTable) (pair : Pair t) :
    (world.setPair t pair).pairs t = pair := Function.update_self ..

theorem setPair_pairs_ne (world : World) {t u : PartitionedTable} (pair : Pair t) (other : u ≠ t) :
    (world.setPair t pair).pairs u = world.pairs u := Function.update_of_ne other ..

end World

inductive Call where
  | begin
  /-- `SELECT count(*) FROM` the legacy table -/
  | countLegacy (t : PartitionedTable)
  | countPartitioned (t : PartitionedTable)
  /-- both numbers in one statement -/
  | getCounts (t : PartitionedTable)
  /-- `information_schema.tables` names the parent -/
  | tableExists (t : PartitionedTable)
  /-- `INSERT ... SELECT ... ON CONFLICT (id, created_at) DO NOTHING` -/
  | copy (t : PartitionedTable)
  /-- `DROP TABLE IF EXISTS ... CASCADE` -/
  | drop (t : PartitionedTable)
  /-- a statement of the application -/
  | writeLegacy (t : PartitionedTable) (change : Keyed t.Row t.id → Keyed t.Row t.id)
  | writePartitioned (t : PartitionedTable) (change : Keyed t.Row t.key → Keyed t.Row t.key)

@[reducible] def Call.Value : Call → Type
  | countLegacy _ => Nat
  | countPartitioned _ => Nat
  | getCounts _ => Nat × Nat
  | tableExists _ => Bool
  | _ => Unit

@[reducible] def Call.Answer (call : Call) : Type := Except String call.Value

abbrev Choice := Transaction.Outcome String

def undefinedTable (t : PartitionedTable) : String := s!"relation \"{t.label}\" does not exist"

def perform (world : World) : (call : Call) → call.Answer × World
  | .begin => (.ok (), { world with begun := true })
  | .countLegacy t =>
    match (world.pairs t).legacy with
    | some legacy => (.ok legacy.size, world)
    | none => (.error (undefinedTable t), world)
  | .countPartitioned t => (.ok (world.pairs t).partitioned.size, world)
  | .getCounts t =>
    match (world.pairs t).legacy with
    | some legacy => (.ok (legacy.size, (world.pairs t).partitioned.size), world)
    | none => (.error (undefinedTable t), world)
  | .tableExists _ => (.ok true, world)
  | .copy t =>
    let pair := world.pairs t
    match pair.legacy with
    | some legacy =>
      (.ok (), world.setPair t { pair with partitioned := pair.partitioned.copyFrom legacy.rows })
    | none => (.error (undefinedTable t), world)
  | .drop t =>
    let pair := world.pairs t
    match pair.legacy with
    | some legacy => (.ok (), world.setPair t { pair with
        legacy := none
        lost := pair.lost ++ legacy.rows.filter (· ∉ pair.partitioned.rows) })
    | none => (.ok (), world)
  | .writeLegacy t change =>
    let pair := world.pairs t
    match pair.legacy with
    | some legacy => (.ok (), world.setPair t { pair with legacy := some (change legacy) })
    | none => (.error (undefinedTable t), world)
  | .writePartitioned t change =>
    let pair := world.pairs t
    (.ok (), world.setPair t { pair with partitioned := change pair.partitioned })

def exec (choice : Choice) (world : World) (call : Call) : call.Answer × World :=
  match choice with
  | .performed => perform world call
  | .refused error => (.error error, world)
  | .lost error => (.error error, (perform world call).2)

abbrev Method (α : Type) : Type := Fallible Call Call.Answer String α

def call (op : Call) : Method op.Value := ExceptT.mk (.call op .done)

/-- `0039_partition_cutover.sql`, the comparison of one table. -/
def checkCounts (t : PartitionedTable) : Method PUnit := do
  let source ← call (.countLegacy t)
  let target ← call (.countPartitioned t)
  if source = target then return ()
  else throw s!"{t.label} ({source}) != {t.label}_p ({target}): run db:backfill-partitions first"

/-- `0039_partition_cutover.sql` -/
def partitionCutover : Method PUnit := do
  call .begin
  forM PartitionedTable.all checkCounts
  forM PartitionedTable.all fun t => call (.drop t)

structure BackfillResult where
  table : String
  copied : Int
  skipped : Nat

def backfillOne (dryRun : Bool) (t : PartitionedTable) : Method BackfillResult := do
  let already ← call (.countPartitioned t)
  if dryRun then return ⟨t.label, 0, already⟩
  else do
    call (.copy t)
    let after ← call (.countPartitioned t)
    return ⟨t.label, after - already, already⟩

/-- `main` of `backfill-partitioned-tables.ts`: what was copied, and the exit code. -/
def backfill (dryRun : Bool) : Method (Int × Nat) := do
  let (totalCopied, totalErrors) ← PartitionedTable.all.foldlM (fun (copied, errors) t =>
    tryCatch (do
      let result ← backfillOne dryRun t
      return (copied + result.copied, errors))
    fun _ => return (copied, errors + 1)) ((0, 0) : Int × Nat)
  return (totalCopied, if totalErrors > 0 then 1 else 0)

def verifyOne (failures : Nat) (t : PartitionedTable) : Method Nat := do
  let present ← call (.tableExists t)
  if present then
    let counts ← tryCatch (do return some (← call (.getCounts t))) fun _ => return none
    match counts with
    | some (source, target) => return if source = target then failures else failures + 1
    | none => return failures + 1
  else return failures + 1

/-- `main` of `verify-partition-cutover.ts`: the exit code. -/
def verify : Method Nat := do
  let failures ← PartitionedTable.all.foldlM verifyOne 0
  return if failures > 0 then 1 else 0

end Partitions.Cutover
