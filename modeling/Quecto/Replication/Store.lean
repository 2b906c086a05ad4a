/-
  Replication/Store.lean --- a follower's board, how a batch is applied to it, and what its
  revisions reach.

  Source: `infrastructure/persistence/sqlite/project_board/replica_store.rs`, `chain_of` of
  `schema.rs` and `application/project_board/ports/replication.rs`.
-/
import Quecto.Foundation.Fallible
import Quecto.Foundation.Machine
import Mathlib.Algebra.GroupWithZero.Nat
import Mathlib.Algebra.Ring.Int.Defs
import Mathlib.Data.String.Basic

namespace Quecto.Replication

open List

abbrev Bytes := List UInt8

class Hashes where
  sha1 : Bytes → String
  sha256 : Bytes → String

def utf8 (text : String) : Bytes := text.toUTF8.data.toList

def bigEndian (n : Nat) : Bytes := (List.range 8).map fun i => UInt8.ofNat (n / 256 ^ (7 - i))

def bigEndianInt (n : Int) : Bytes := bigEndian (n % 2 ^ 64).toNat

/-! ## Objects -/

structure ReplicaEntry where
  mode : String
  rawName : Bytes
  oid : String
  deriving DecidableEq

inductive ReplicaContent where
  | blob (bytes : Bytes)
  | tree (size : Nat) (entries : List ReplicaEntry)
  deriving DecidableEq

structure ObjectRow where
  oid : String
  content : ReplicaContent
  original : Option (Option Bytes)
  deriving DecidableEq

structure ReplicaObject extends ObjectRow where
  sequence : Nat
  deriving DecidableEq

namespace ReplicaContent

def kind : ReplicaContent → String
  | .blob _ => "blob"
  | .tree _ _ => "tree"

def isTree : ReplicaContent → Bool
  | .blob _ => false
  | .tree _ _ => true

def children : ReplicaContent → List String
  | .blob _ => []
  | .tree _ entries => entries.map (·.oid)

end ReplicaContent

/-! ## Native ids -/

def usizeMax : Nat := 2 ^ 64 - 1

def i64Max : Nat := 2 ^ 63 - 1

def frame (bytes : Bytes) : Bytes := bigEndian bytes.length ++ bytes

def objectTag : Bytes := frame (utf8 "quecto-board-object-v2")

def isObjectId (text : String) : Bool :=
  (utf8 text).all (fun b => (0x30 ≤ b && b ≤ 0x39) || (0x61 ≤ b && b ≤ 0x66)) &&
    (text.utf8ByteSize == 40 || text.utf8ByteSize == 64)

def rawEntryBytes (mode : String) (name : Bytes) (oid : String) : Nat :=
  (String.ofList (mode.toList.dropWhile (· == '0'))).utf8ByteSize + 1 + name.length + 1 +
    oid.utf8ByteSize / 2

def entriesBytes (entries : List ReplicaEntry) : Option Nat :=
  entries.foldlM
    (fun sum entry =>
      let next := sum + rawEntryBytes entry.mode entry.rawName entry.oid
      if next ≤ usizeMax then some next else none) 0

section

variable [Hashes]

def digest (kind : String) (fields : List Bytes) : String :=
  Hashes.sha256 (objectTag ++ frame (utf8 kind) ++ fields.flatMap frame)

def blobId (bytes : Bytes) : String := digest "blob" [bytes]

/-- The id and the size of the tree of `rows`. -/
def treeDigest (rows : List ReplicaEntry) : Option (String × Nat) :=
  if rows.all (isObjectId ·.oid) then
    (entriesBytes rows).bind fun size =>
      if size ≤ i64Max then
        let fields := rows.flatMap fun row => [utf8 row.mode, row.rawName, utf8 row.oid]
        some (Hashes.sha256 (objectTag ++ frame (utf8 "tree") ++ frame (bigEndian rows.length) ++
          fields.flatMap frame), size)
      else none
  else none

/-! ## Imported ids -/

def verifyRaw (oid kind : String) (bytes : Bytes) (width : Nat) : Bool :=
  let framed := utf8 kind ++ [0x20] ++ utf8 (toString bytes.length) ++ [0x00] ++ bytes
  if width = 40 then Hashes.sha1 framed == oid
  else if width = 64 then Hashes.sha256 framed == oid
  else false

end

def digitOf (byte : UInt8) : Option Nat :=
  if 0x30 ≤ byte && byte ≤ 0x39 then some (byte.toNat - 0x30)
  else if 0x61 ≤ byte && byte ≤ 0x7a then some (byte.toNat - 0x61 + 10)
  else if 0x41 ≤ byte && byte ≤ 0x5a then some (byte.toNat - 0x41 + 10)
  else none

def digitsOf (radix most : Nat) (bytes : Bytes) : Option Nat :=
  bytes.foldlM
    (fun value byte =>
      (digitOf byte).bind fun digit =>
        if digit < radix ∧ value * radix + digit ≤ most then some (value * radix + digit) else none)
    0

def fromStrRadix (radix most : Nat) : Bytes → Option Nat
  | [] => none
  | [0x2b] => none
  | 0x2b :: rest => digitsOf radix most rest
  | bytes => digitsOf radix most bytes

def normalizedMode (mode : Nat) : String :=
  let kind := mode / 0o10000 % 0o20
  if kind = 0o04 then "040000"
  else if kind = 0o12 then "120000"
  else if kind = 0o10 then (if mode / 0o100 % 2 = 1 then "100755" else "100644")
  else "160000"

def pairs : Bytes → List Bytes
  | a :: b :: rest => [a, b] :: pairs rest
  | _ => []

/-- What is left of a raw tree after its first entry, when that is `row`. -/
def projectEntry (width : Nat) (bytes : Bytes) (row : ReplicaEntry) : Option Bytes :=
  let mode := bytes.takeWhile (· != 0x20)
  if mode.length = bytes.length then none
  else
    (fromStrRadix 8 (2 ^ 32 - 1) mode).bind fun mode' =>
      let bytes := bytes.drop (mode.length + 1)
      let name := bytes.takeWhile (· != 0x00)
      if name.length = bytes.length then none
      else if normalizedMode mode' = row.mode ∧ name = row.rawName ∧ name.length ≤ 4096 then
        let bytes := bytes.drop (name.length + 1)
        let id := bytes.take (width / 2)
        let same := (id.zip (pairs (utf8 row.oid))).all fun (byte, pair) =>
          fromStrRadix 16 255 pair == some byte.toNat
        if id.length = width / 2 ∧ row.oid.utf8ByteSize = width ∧ same then
          some (bytes.drop (width / 2))
        else none
      else none

def projection (raw : Bytes) (entries : List ReplicaEntry) (width : Nat) : Bool :=
  match entries.foldlM (projectEntry width) raw with
  | some rest => rest.isEmpty
  | none => false

/-- Whether an object is as its id says: a native one's id is made again from its
content, an imported one's from its raw bytes. -/
def ObjectRow.asItsIdSays [Hashes] (object : ObjectRow) : Bool :=
  let width := object.oid.utf8ByteSize
  let git := width == 40 || width == 64
  match object.content, object.original with
  | .blob bytes, none => blobId bytes == object.oid
  | .tree size entries, none =>
      match treeDigest entries with
      | some (oid, made) => oid == object.oid && made == size
      | none => false
  | .blob bytes, some none => git && verifyRaw object.oid "blob" bytes width
  | .tree size entries, some (some raw) =>
      git && verifyRaw object.oid "tree" raw width && projection raw entries width &&
        entriesBytes entries == some size
  | _, _ => false

open Foundation

/-! ## Rows -/

structure ReplicaRevision where
  head : String
  root : String
  name : String
  email : String
  revision : Nat
  parent : Option Nat
  message : String
  at_ : Int
  gitCommit : Option String
  gitMeta : Option Bytes
  principal : Option String
  chain : String
  deriving DecidableEq

structure ReplicaEpoch where
  epoch : Nat
  fromRevision : Nat
  reason : String
  at_ : Int
  deriving DecidableEq

structure ReplicaMeta where
  boardId : Option String
  algorithm : String
  sourceRemote : Option String
  sourceRef : Option String
  sourceHead : Option String
  importedCount : Nat
  deriving DecidableEq

structure Board where
  objects : List ObjectRow
  revisions : List ReplicaRevision
  epochs : List ReplicaEpoch
  provenance : Option ReplicaMeta
  head : Option String
  deriving DecidableEq

def Board.empty : Board := ⟨[], [], [], none, none⟩

structure ReplicaBatch where
  after : Nat
  chainAfter : Option String
  objects : List ReplicaObject
  revisions : List ReplicaRevision
  epochs : List ReplicaEpoch
  provenance : Option ReplicaMeta
  tip : Nat
  more : Bool
  deriving DecidableEq

structure ReplicaPosition where
  revision : Nat
  chain : Option String
  objects : Nat
  deriving DecidableEq

/-- Why a batch was not applied: the store failed, the batch is not the next one, or the
primary's history is not this one's. -/
inductive ReplicaError where
  | unavailable (why : String)
  | invalid (why : String)
  | diverged (why : String)
  deriving DecidableEq

def notUnique (column : String) : ReplicaError :=
  .unavailable s!"Unavailable(\"UNIQUE constraint failed: {column}\")"

def asI64 (n : Nat) (error : String → ReplicaError) : Except ReplicaError Unit :=
  require (n ≤ i64Max) (error "out of range integral type conversion attempted")

def ReplicaContent.storedSize : ReplicaContent → Nat
  | .blob _ => 0
  | .tree size _ => size

variable {batch : ReplicaBatch}

namespace Board

def tip (board : Board) : Nat := board.revisions.getLast?.elim 0 (·.revision)

def position (board : Board) : ReplicaPosition :=
  ⟨board.tip, board.revisions.getLast?.map (·.chain), board.objects.length⟩

def holdsTree (board : Board) (oid : String) : Bool :=
  board.objects.any fun object => object.oid == oid && object.content.isTree

/-! ## Objects -/

section

variable [Hashes]

def putObject (board : Board) (object : ReplicaObject) : Except ReplicaError Board := do
  let place := board.objects.length + 1
  require (object.sequence == place) (.invalid
    (s!"object {object.oid} is at place {object.sequence} on the primary, not {place}: " ++
      "a batch's objects come in order"))
  asI64 place .invalid
  require object.asItsIdSays (.invalid s!"{object.content.kind} {object.oid} is not as its id says")
  asI64 object.content.storedSize .invalid
  require (!board.objects.any (·.oid == object.oid)) (notUnique "objects.oid")
  return { board with objects := board.objects ++ [object.toObjectRow] }

/-! ## Revisions -/

def maybe (value : Option Bytes) : Bytes :=
  match value with
  | none => [0]
  | some bytes => 1 :: bytes

def chainOf (before : Option String) (row : ReplicaRevision) : String :=
  digest "chain" [maybe (before.map utf8), utf8 row.head, utf8 row.root, utf8 row.name,
    utf8 row.email, bigEndian row.revision, maybe (row.parent.map bigEndian), utf8 row.message,
    bigEndianInt row.at_, maybe (row.gitCommit.map utf8), maybe row.gitMeta,
    maybe (row.principal.map utf8)]

def chainBefore (board : Board) (number : Nat) : Except ReplicaError (Option String) :=
  if number = 1 then .ok none
  else
    match board.revisions.find? (·.revision == number - 1) with
    | some row => .ok (some row.chain)
    | none => .error (.unavailable s!"Unavailable(\"revision {number - 1} has no chain\")")

def putRevision (board : Board) (revision : ReplicaRevision) (last : Nat) :
    Except ReplicaError Board := do
  let number := revision.revision
  let parentOk :=
    if number = 1 then revision.parent.isNone else revision.parent == some (number - 1)
  require (number == last + 1 && parentOk && board.holdsTree revision.root) (.invalid
    s!"revision {number} does not follow revision {last} on a tree this board holds")
  asI64 number .invalid
  require (!board.revisions.any (·.head == revision.head)) (notUnique "revisions.head")
  let before ← board.chainBefore number
  require (chainOf before revision == revision.chain) (.invalid
    s!"revision {number}'s rows do not make the chain the primary sent")
  return { board with revisions := board.revisions ++ [revision] }

end

/-! ## Epochs and provenance -/

def putEpoch (board : Board) (epoch : ReplicaEpoch) : Except ReplicaError Board := do
  asI64 epoch.epoch .unavailable
  asI64 epoch.fromRevision .unavailable
  let last := board.epochs.foldl (fun last held => max last held.epoch) 0
  match board.epochs.find? (·.epoch == epoch.epoch) with
  | some held =>
      require (held == epoch) (.diverged s!"epoch {epoch.epoch} differs from the primary's")
      return board
  | none =>
      require (epoch.epoch == last + 1) (.invalid
        s!"epoch {epoch.epoch} does not follow epoch {last}")
      return { board with epochs := board.epochs ++ [epoch] }

def namesBoard (received : ReplicaMeta) (bound : Option String) : Except ReplicaError Unit :=
  match received.boardId, bound with
  | some primary, some here =>
      require (primary == here) (.invalid
        s!"the primary serves board {primary}, not this server's board {here}")
  | some _, none => .ok ()
  | none, _ => .error (.invalid "the primary's board names no board id: it is not copied")

def putMeta (board : Board) (received : ReplicaMeta) (bound : Option String) :
    Except ReplicaError Board := do
  namesBoard received bound
  let bound := { board with provenance := some received }
  match board.provenance with
  | none =>
      asI64 received.importedCount .invalid
      return bound
  | some held =>
      if held = received then return board
      else
        require (held.boardId.isNone && { held with boardId := received.boardId } == received)
          (.diverged
            "the primary's provenance (its algorithm or import source) is not this board's")
        asI64 received.importedCount .invalid
        return bound

/-! ## Batches -/

section

variable [Hashes]

def putRevisions (board : Board) : List ReplicaRevision → Nat → Except ReplicaError Board
  | [], _ => .ok board
  | revision :: rest, last => do
      let board ← board.putRevision revision last
      board.putRevisions rest revision.revision

def apply (board : Board) (bound : Option String) (batch : ReplicaBatch) :
    Except ReplicaError Board := do
  let at_ := board.position
  require (at_.revision == batch.after && at_.chain == batch.chainAfter) (.diverged
    (s!"the batch follows revision {batch.after}, but this board is at revision " ++
      s!"{at_.revision} (or its chain differs)"))
  let board ← batch.objects.foldlM putObject board
  let board ← board.putRevisions batch.revisions at_.revision
  let board ← batch.epochs.foldlM putEpoch board
  let board ← batch.provenance.elim (.ok board) (board.putMeta · bound)
  return { board with head := (batch.revisions.getLast?.map (·.head)).or board.head }

end

/-! ## What an applied batch leaves -/

variable {board after : Board} {last : Nat} {bound : Option String}

lemma putObject_eq_ok [Hashes] {object : ReplicaObject} (h : board.putObject object = .ok after) :
    object.asItsIdSays = true ∧ (∀ held ∈ board.objects, held.oid ≠ object.oid) ∧
      after = { board with objects := board.objects ++ [object.toObjectRow] } := by
  simp only [putObject, asI64, bind_eq_ok, require_eq_ok, pure_eq_ok, beq_iff_eq] at h
  obtain ⟨_, -, _, -, _, hid, _, -, _, hfresh, hafter⟩ := h
  refine ⟨hid, ?_, hafter.symm⟩
  simpa using hfresh

lemma putObjects_eq_ok [Hashes] {objects : List ReplicaObject}
    (h : objects.foldlM putObject board = .ok after) :
    (∀ object ∈ objects, object.asItsIdSays = true) ∧ ((board.objects.map (·.oid)).Nodup →
        ((board.objects ++ objects.map (·.toObjectRow)).map (·.oid)).Nodup) ∧
      after = { board with objects := board.objects ++ objects.map (·.toObjectRow) } := by
  induction objects generalizing board with
  | nil =>
    rw [foldlM_nil, pure_eq_ok] at h
    subst h
    simp
  | cons object rest ih =>
    rw [foldlM_cons, bind_eq_ok] at h
    obtain ⟨middle, hput, hrest⟩ := h
    obtain ⟨hid, hfresh, rfl⟩ := putObject_eq_ok hput
    obtain ⟨hids, hnodup, rfl⟩ := ih hrest
    refine ⟨?_, ?_, ?_⟩
    · exact forall_mem_cons.mpr ⟨hid, hids⟩
    · intro hheld
      have hone : ((board.objects ++ [object.toObjectRow]).map (·.oid)).Nodup := by
        rw [map_append, map_singleton, nodup_append]
        refine ⟨hheld, pairwise_singleton _ _, ?_⟩
        intro oid hoid new hnew
        obtain ⟨held, hmem, rfl⟩ := mem_map.mp hoid
        rw [mem_singleton] at hnew
        rw [hnew]
        exact hfresh held hmem
      have hall := hnodup hone
      rw [append_assoc] at hall
      exact hall
    · rw [map_cons, append_assoc, singleton_append]

lemma putRevision_eq_ok [Hashes] {revision : ReplicaRevision}
    (h : board.putRevision revision last = .ok after) :
    board.holdsTree revision.root = true ∧
      after = { board with revisions := board.revisions ++ [revision] } := by
  simp only [putRevision, asI64, bind_eq_ok, require_eq_ok, pure_eq_ok, Bool.and_eq_true,
    beq_iff_eq] at h
  obtain ⟨_, hfollows, _, -, _, -, _, -, _, -, hafter⟩ := h
  exact ⟨hfollows.2, hafter.symm⟩

lemma putRevisions_eq_ok [Hashes] {revisions : List ReplicaRevision}
    (h : board.putRevisions revisions last = .ok after) :
    (∀ revision ∈ revisions, board.holdsTree revision.root = true) ∧
      after = { board with revisions := board.revisions ++ revisions } := by
  induction revisions generalizing board last with
  | nil =>
    rw [putRevisions, Except.ok.injEq] at h
    subst h
    simp
  | cons revision rest ih =>
    rw [putRevisions, bind_eq_ok] at h
    obtain ⟨middle, hput, hrest⟩ := h
    obtain ⟨hroot, rfl⟩ := putRevision_eq_ok hput
    obtain ⟨hroots, rfl⟩ := ih hrest
    refine ⟨forall_mem_cons.mpr ⟨hroot, hroots⟩, ?_⟩
    rw [append_assoc, singleton_append]

lemma putEpoch_eq_ok {epoch : ReplicaEpoch} (h : board.putEpoch epoch = .ok after) :
    after.objects = board.objects ∧ after.revisions = board.revisions := by
  simp only [putEpoch, asI64, bind_eq_ok, require_eq_ok] at h
  obtain ⟨_, -, _, -, h⟩ := h
  split at h
  · simp only [bind_eq_ok, require_eq_ok, pure_eq_ok] at h
    obtain ⟨_, -, rfl⟩ := h
    exact ⟨rfl, rfl⟩
  simp only [bind_eq_ok, require_eq_ok, pure_eq_ok] at h
  obtain ⟨_, -, rfl⟩ := h
  exact ⟨rfl, rfl⟩

lemma putEpochs_eq_ok {epochs : List ReplicaEpoch} (h : epochs.foldlM putEpoch board = .ok after) :
    after.objects = board.objects ∧ after.revisions = board.revisions := by
  induction epochs generalizing board with
  | nil =>
    rw [foldlM_nil, pure_eq_ok] at h
    subst h
    exact ⟨rfl, rfl⟩
  | cons epoch rest ih =>
    rw [foldlM_cons, bind_eq_ok] at h
    obtain ⟨middle, hput, hrest⟩ := h
    obtain ⟨hobjects, hrevisions⟩ := putEpoch_eq_ok hput
    rw [← hobjects, ← hrevisions]
    exact ih hrest

lemma putMeta_eq_ok {received : ReplicaMeta} (h : board.putMeta received bound = .ok after) :
    after.objects = board.objects ∧ after.revisions = board.revisions := by
  rw [putMeta, bind_eq_ok] at h
  obtain ⟨_, -, h⟩ := h
  split at h
  · simp only [bind_eq_ok, pure_eq_ok] at h
    obtain ⟨_, -, rfl⟩ := h
    exact ⟨rfl, rfl⟩
  split at h
  · rw [pure_eq_ok] at h
    subst h
    exact ⟨rfl, rfl⟩
  · simp only [bind_eq_ok, pure_eq_ok] at h
    obtain ⟨_, -, _, -, rfl⟩ := h
    exact ⟨rfl, rfl⟩

/-- What a follower holds after a batch it accepted. -/
structure Applied [Hashes] (board : Board) (batch : ReplicaBatch) (after : Board) : Prop where
  objects : after.objects = board.objects ++ batch.objects.map (·.toObjectRow)
  revisions : after.revisions = board.revisions ++ batch.revisions
  ids : ∀ object ∈ batch.objects, object.asItsIdSays = true
  nodup : (board.objects.map (·.oid)).Nodup → (after.objects.map (·.oid)).Nodup
  roots : ∀ revision ∈ batch.revisions, after.holdsTree revision.root = true

lemma apply_eq_ok [Hashes] (h : board.apply bound batch = .ok after) :
    Applied board batch after := by
  simp only [apply, bind_eq_ok, pure_eq_ok] at h
  obtain ⟨_, -, withObjects, hobjects, withRevisions, hrevisions, withEpochs, hepochs, withMeta,
    hmeta, rfl⟩ := h
  obtain ⟨hids, hnodup, rfl⟩ := putObjects_eq_ok hobjects
  obtain ⟨hroots, rfl⟩ := putRevisions_eq_ok hrevisions
  obtain ⟨hsame, hsame'⟩ := putEpochs_eq_ok hepochs
  have hrest : withMeta.objects = withEpochs.objects ∧
      withMeta.revisions = withEpochs.revisions := by
    cases hprovenance : batch.provenance with
    | none =>
      rw [hprovenance, Option.elim_none, Except.ok.injEq] at hmeta
      subst hmeta
      exact ⟨rfl, rfl⟩
    | some received =>
      rw [hprovenance] at hmeta
      exact putMeta_eq_ok hmeta
  have hafter := hrest.1.trans hsame
  refine ⟨hafter, hrest.2.trans hsame', hids, ?_, ?_⟩
  · intro hheld
    exact hafter ▸ hnodup hheld
  intro revision hrevision
  have hroot := hroots revision hrevision
  rw [hafter]
  exact hroot

end Board

open Replication.Board

/-! ## Reachability -/

/-- The ids a root reaches through the entries of the trees among `objects`. -/
inductive Reaches (objects : List ObjectRow) (root : String) : String → Prop
  | root : Reaches objects root root
  | entry {object : ObjectRow} {child : String} (reached : Reaches objects root object.oid)
      (held : object ∈ objects) (named : child ∈ object.content.children) :
      Reaches objects root child

def Named (objects : List ObjectRow) (oid : String) : Prop :=
  ∃ object ∈ objects, object.oid = oid

variable {objects : List ObjectRow} {oid : String}

lemma Named.append_left {more : List ObjectRow}
    (h : Named objects oid) : Named (objects ++ more) oid := by
  obtain ⟨object, hobject, hoid⟩ := h
  exact ⟨object, mem_append_left more hobject, hoid⟩

lemma Reaches.of_append {more : List ObjectRow} {root : String}
    (hnodup : ((objects ++ more).map (·.oid)).Nodup)
    (hall : ∀ oid, Reaches objects root oid → Named objects oid)
    (h : Reaches (objects ++ more) root oid) : Reaches objects root oid := by
  induction h with
  | root => exact .root
  | @entry object child _ held named ih =>
    obtain ⟨same, hsame, hoid⟩ := hall object.oid ih
    have heq : same = object :=
      inj_on_of_nodup_map hnodup (mem_append_left more hsame) held hoid
    exact .entry ih (heq ▸ hsame) named

/-- Every entry of every tree is the id of an object. -/
def Closed (objects : List ObjectRow) : Prop :=
  ∀ object ∈ objects, ∀ child ∈ object.content.children, Named objects child

lemma Reaches.named {root : String} (hclosed : Closed objects)
    (hroot : Named objects root) (h : Reaches objects root oid) : Named objects oid := by
  cases h with
  | root => exact hroot
  | entry _ held named => exact hclosed _ held _ named

/-! ## Boards -/

namespace Board

variable [Hashes] (bound : Option String)

/-- A batch is applied whole, or leaves the board as it was. -/
def receive (board : Board) (batch : ReplicaBatch) : Except ReplicaError ReplicaPosition × Board :=
  match board.apply bound batch with
  | .ok after => (.ok after.position, after)
  | .error error => (.error error, board)

def Accepts (board : Board) (batch : ReplicaBatch) : Prop :=
  ∃ after, board.apply bound batch = .ok after

/-- Every object a revision reaches is held, and is as its id says. -/
def Whole (board : Board) : Prop :=
  ∀ revision ∈ board.revisions, ∀ oid, Reaches board.objects revision.root oid →
    ∃ object ∈ board.objects, object.oid = oid ∧ object.asItsIdSays = true

/-- All that the revisions of a batch reach is held or comes with the batch. -/
def Supplied (board : Board) (batch : ReplicaBatch) : Prop :=
  ∀ revision ∈ batch.revisions, ∀ oid,
    Reaches (board.objects ++ batch.objects.map (·.toObjectRow)) revision.root oid →
      Named (board.objects ++ batch.objects.map (·.toObjectRow)) oid

structure Kept (board : Board) : Prop where
  nodup : (board.objects.map (·.oid)).Nodup
  ids : ∀ object ∈ board.objects, object.asItsIdSays = true

lemma Kept.empty : empty.Kept := ⟨nodup_nil, fun _ h => absurd h not_mem_nil⟩

lemma Applied.kept {board after : Board} (h : Applied board batch after)
    (hkept : board.Kept) : after.Kept where
  nodup := h.nodup hkept.nodup
  ids object hobject := by
    rw [h.objects, mem_append] at hobject
    obtain hheld | hnew := hobject
    · exact hkept.ids object hheld
    · obtain ⟨sent, hsent, rfl⟩ := mem_map.mp hnew
      exact h.ids sent hsent

/-- A batch leaves the board whole exactly when it is supplied. -/
lemma Applied.stays_whole_iff {board after : Board}
    (h : Applied board batch after) (hkept : board.Kept) (hwhole : board.Whole) :
    after.Whole ↔ board.Supplied batch := by
  have hafter := h.kept hkept
  constructor
  · intro hall revision hrevision oid hreaches
    rw [← h.objects] at hreaches ⊢
    have hheld : revision ∈ after.revisions := by
      rw [h.revisions]
      exact mem_append_right _ hrevision
    obtain ⟨object, hobject, hoid, -⟩ := hall revision hheld oid hreaches
    exact ⟨object, hobject, hoid⟩
  · intro hsupplied revision hrevision oid hreaches
    suffices hnamed : Named after.objects oid by
      obtain ⟨object, hobject, hoid⟩ := hnamed
      exact ⟨object, hobject, hoid, hafter.ids object hobject⟩
    rw [h.revisions, mem_append] at hrevision
    rw [h.objects] at hreaches ⊢
    obtain hheld | hnew := hrevision
    · -- an older revision reaches what it reached
      have hnodup := hafter.nodup
      rw [h.objects] at hnodup
      have hnames : ∀ oid, Reaches board.objects revision.root oid → Named board.objects oid := by
        intro oid hreaches
        obtain ⟨object, hobject, hoid, -⟩ := hwhole revision hheld oid hreaches
        exact ⟨object, hobject, hoid⟩
      exact (hnames oid (hreaches.of_append hnodup hnames)).append_left
    · exact hsupplied revision hnew oid hreaches

lemma receive_cases (board : Board) (batch : ReplicaBatch) :
    (board.Accepts bound batch ∧ Applied board batch (board.receive bound batch).2) ∨
      (¬ board.Accepts bound batch ∧ (board.receive bound batch).2 = board) := by
  unfold receive Accepts
  cases happly : board.apply bound batch with
  | ok after => exact .inl ⟨⟨after, rfl⟩, apply_eq_ok happly⟩
  | error error =>
    refine .inr ⟨?_, rfl⟩
    rintro ⟨after, hafter⟩
    cases hafter

/-- The boards reached from an empty one are whole exactly when every accepted batch was
supplied. -/
theorem whole_iff (batches : List ReplicaBatch) :
    (∀ m ∈ moments (receive bound) empty batches, m.after.Whole) ↔
      ∀ m ∈ moments (receive bound) empty batches,
        m.before.Accepts bound m.input → m.before.Supplied m.input := by
  refine moments_forall_iff_allowed (I := fun board : Board => board.Kept ∧ board.Whole)
    (G := fun (board : Board) batch => board.Accepts bound batch → board.Supplied batch)
    (R := fun m : Moment Board ReplicaBatch _ => m.after.Whole) ?_ ?_
    ⟨.empty, fun _ h => absurd h not_mem_nil⟩ batches
  · intro board batch ⟨hkept, hwhole⟩ hsupplied
    obtain ⟨haccepts, happlied⟩ | ⟨-, hsame⟩ := board.receive_cases bound batch
    · exact ⟨happlied.kept hkept, (happlied.stays_whole_iff hkept hwhole).mpr (hsupplied haccepts)⟩
    · rw [hsame]
      exact ⟨hkept, hwhole⟩
  · intro board batch ⟨hkept, hwhole⟩
    rw [momentAt]
    obtain ⟨haccepts, happlied⟩ | ⟨hrefuses, hsame⟩ := board.receive_cases bound batch
    · exact (happlied.stays_whole_iff hkept hwhole).trans ⟨fun h _ => h, fun h => h haccepts⟩
    · rw [hsame]
      exact ⟨fun _ haccepts => absurd haccepts hrefuses, fun _ => hwhole⟩

/-- The trees of a batch name only objects held or in the batch itself. -/
def Complete (board : Board) (batch : ReplicaBatch) : Prop :=
  ∀ object ∈ batch.objects, ∀ child ∈ object.content.children,
    Named (board.objects ++ batch.objects.map (·.toObjectRow)) child

lemma Applied.closed {board after : Board} (h : Applied board batch after)
    (hclosed : Closed board.objects) (hcomplete : board.Complete batch) :
    Closed after.objects := by
  intro object hobject child hchild
  rw [h.objects, mem_append] at hobject
  rw [h.objects]
  obtain hheld | hnew := hobject
  · exact (hclosed object hheld child hchild).append_left
  · obtain ⟨sent, hsent, rfl⟩ := mem_map.mp hnew
    exact hcomplete sent hsent child hchild

lemma Applied.supplied {board after : Board} (h : Applied board batch after)
    (hclosed : Closed after.objects) : board.Supplied batch := by
  intro revision hrevision oid hreaches
  rw [← h.objects] at hreaches ⊢
  obtain ⟨tree, htree, hroot⟩ := any_eq_true.mp (h.roots revision hrevision)
  rw [Bool.and_eq_true, beq_iff_eq] at hroot
  exact hreaches.named hclosed ⟨tree, htree, hroot.1⟩

/-- When every accepted batch is complete, every accepted batch is supplied. -/
lemma supplied_of_complete {batches : List ReplicaBatch}
    (h : ∀ m ∈ moments (receive bound) empty batches,
      m.before.Accepts bound m.input → m.before.Complete m.input) :
    ∀ m ∈ moments (receive bound) empty batches,
      m.before.Accepts bound m.input → m.before.Supplied m.input := by
  refine moments_forall_of_allowed (I := fun board : Board => Closed board.objects)
    (G := fun (board : Board) batch => board.Accepts bound batch → board.Complete batch) ?_ ?_
    (forall_mem_nil _) h
  · intro board batch hclosed hcomplete
    obtain ⟨haccepts, happlied⟩ | ⟨-, hsame⟩ := board.receive_cases bound batch
    · exact happlied.closed hclosed (hcomplete haccepts)
    · rw [hsame]
      exact hclosed
  · rintro board batch hclosed hcomplete ⟨after, hafter⟩
    have happlied := apply_eq_ok hafter
    exact happlied.supplied (happlied.closed hclosed (hcomplete ⟨after, hafter⟩))

end Board

/-! ## A primary restored from a backup -/

def checksum (bytes : Bytes) : String :=
  let digits := toString (bytes.foldl (fun sum byte => (sum * 257 + byte.toNat) % 1000003) 7)
  String.ofList (List.replicate (64 - digits.length) '0') ++ digits

abbrev checksums : Hashes := ⟨checksum, checksum⟩

section

attribute [local instance] checksums

def blobObject (sequence : Nat) (bytes : Bytes) : ReplicaObject :=
  { oid := blobId bytes, content := .blob bytes, original := none, sequence }

def treeObject (sequence : Nat) (entries : List ReplicaEntry) : ReplicaObject :=
  let made := (treeDigest entries).getD ("", 0)
  { oid := made.1, content := .tree made.2 entries, original := none, sequence }

def oneFile : ReplicaObject := treeObject 2 [⟨"100644", [0x66], blobId [0x62]⟩]

def firstRevision : ReplicaRevision :=
  let row : ReplicaRevision := {
    head := "1:1", root := oneFile.oid, name := "a", email := "a@b", revision := 1, parent := none,
    message := "m", at_ := 0, gitCommit := none, gitMeta := none, principal := none, chain := "" }
  { row with chain := chainOf none row }

/-- The first object of a primary that is then restored from an empty backup, and what the
restored one sends a follower that already holds one object: its file is at the first
place, and is never sent. -/
def restoredBatches : List ReplicaBatch := [
  { after := 0, chainAfter := none, objects := [blobObject 1 [0x61]], revisions := [],
    epochs := [], provenance := none, tip := 0, more := true },
  { after := 0, chainAfter := none, objects := [oneFile], revisions := [firstRevision],
    epochs := [], provenance := none, tip := 1, more := false }]

/-- Both batches are accepted, and the revision's file is not held. -/
theorem restored_primary_breaks_revision :
    (outputs (receive none) .empty restoredBatches).all (·.toBool) = true ∧
      (∃ revision ∈ (exec (receive none) .empty restoredBatches).revisions,
        Reaches (exec (receive none) .empty restoredBatches).objects revision.root
          (blobId [0x62])) ∧
      ¬ Named (exec (receive none) .empty restoredBatches).objects (blobId [0x62]) := by
  have hrevisions : (exec (receive none) .empty restoredBatches).revisions =
      [firstRevision] := by decide +kernel
  have hobjects : (exec (receive none) .empty restoredBatches).objects =
      [(blobObject 1 [0x61]).toObjectRow, oneFile.toObjectRow] := by decide +kernel
  refine ⟨by decide +kernel, ⟨firstRevision, ?_, ?_⟩, ?_⟩
  · rw [hrevisions]
    exact mem_singleton_self _
  · rw [hobjects]
    have hroot : firstRevision.root = oneFile.toObjectRow.oid := by decide +kernel
    have hheld : oneFile.toObjectRow ∈
        [(blobObject 1 [0x61]).toObjectRow, oneFile.toObjectRow] := by
      simp
    have hnamed : blobId [0x62] ∈ oneFile.toObjectRow.content.children := by decide +kernel
    rw [hroot]
    exact Reaches.root.entry hheld hnamed
  · rintro ⟨object, hobject, hoid⟩
    revert object
    decide +kernel

end

end Quecto.Replication
