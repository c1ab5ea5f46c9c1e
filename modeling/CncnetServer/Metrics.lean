import CncnetServer.Net
import Mathlib.Algebra.Group.Nat.Defs
import Mathlib.Logic.Function.Basic

/-!
`metrics.rs`, the counting half: the shared atomic counters of `Metrics` and the
per-worker `LocalMetricsBatch` that is flushed into them.

A batch counts packets (`u32`) and bytes (`u64`) in four lanes, one for each
tunnel and direction; the source's eight fields are `packets` and `bytes` of
those lanes. Arithmetic wraps, as in the release build.
-/

namespace CncnetServer

/-- The atomic counters of `Metrics`, under their field names. -/
inductive Counter
  | v3PacketsReceived | v3PacketsSent | v3BytesReceived | v3BytesSent | v3PingRequests
  | v2PacketsReceived | v2PacketsSent | v2BytesReceived | v2BytesSent
  | v2HttpRequests | v2PingRequests
  | p2pRequests | p2pResponses
  | rateLimitHits | droppedPackets | droppedConnections | invalidPackets
  deriving DecidableEq, Repr

structure Metrics where
  count : Counter → UInt64
  v3ActiveClients : Nat
  v2ActiveClients : Nat

def Metrics.new : Metrics := ⟨fun _ => 0, 0, 0⟩

/-- `fetch_add` on one counter. -/
def Metrics.fetchAdd (m : Metrics) (c : Counter) (n : UInt64) : Metrics :=
  { m with count := Function.update m.count c (m.count c + n) }

/-! ## The batch of one worker -/

inductive Lane
  | v3Rx | v3Tx | v2Rx | v2Tx
  deriving DecidableEq, Repr

structure LocalMetricsBatch where
  packets : Lane → UInt32
  bytes : Lane → UInt64
  counter : UInt16

namespace LocalMetricsBatch

def flushInterval : UInt16 := 64

def new : LocalMetricsBatch := ⟨fun _ => 0, fun _ => 0, 0⟩

def record (b : LocalMetricsBatch) (l : Lane) (n : UInt64) : LocalMetricsBatch :=
  { b with
    packets := Function.update b.packets l (b.packets l + 1)
    bytes := Function.update b.bytes l (b.bytes l + n) }

def recordV3Rx (b : LocalMetricsBatch) (n : UInt64) := b.record .v3Rx n
def recordV3Tx (b : LocalMetricsBatch) (n : UInt64) := b.record .v3Tx n
def recordV2Rx (b : LocalMetricsBatch) (n : UInt64) := b.record .v2Rx n
def recordV2Tx (b : LocalMetricsBatch) (n : UInt64) := b.record .v2Tx n

end LocalMetricsBatch

/-- One of the eight fields of the batch. -/
inductive BatchField
  | packets (l : Lane)
  | bytes (l : Lane)
  deriving DecidableEq, Repr

/-- The counter a field is flushed into. -/
def BatchField.counter : BatchField → Counter
  | .packets .v3Rx => .v3PacketsReceived
  | .packets .v3Tx => .v3PacketsSent
  | .bytes .v3Rx => .v3BytesReceived
  | .bytes .v3Tx => .v3BytesSent
  | .packets .v2Rx => .v2PacketsReceived
  | .packets .v2Tx => .v2PacketsSent
  | .bytes .v2Rx => .v2BytesReceived
  | .bytes .v2Tx => .v2BytesSent

/-- What one packet of `n` bytes in the lane adds to a field. -/
def BatchField.amount (l : Lane) (n : Nat) : BatchField → Nat
  | .packets l' => if l' = l then 1 else 0
  | .bytes l' => if l' = l then n else 0

/-- The fields in the order in which `flush` visits them. -/
def BatchField.flushOrder : List BatchField :=
  [.packets .v3Rx, .packets .v3Tx, .bytes .v3Rx, .bytes .v3Tx,
    .packets .v2Rx, .packets .v2Tx, .bytes .v2Rx, .bytes .v2Tx]

theorem BatchField.mem_flushOrder (f : BatchField) : f ∈ BatchField.flushOrder := by
  cases f with
  | packets l => cases l <;> decide
  | bytes l => cases l <;> decide

theorem BatchField.counter_injective : Function.Injective BatchField.counter := by
  intro f g h
  cases f with
  | packets l =>
    cases g with
    | packets l' => cases l <;> cases l' <;> first | rfl | cases h
    | bytes l' => cases l <;> cases l' <;> cases h
  | bytes l =>
    cases g with
    | packets l' => cases l <;> cases l' <;> cases h
    | bytes l' => cases l <;> cases l' <;> first | rfl | cases h

theorem BatchField.counter_ne_invalidPackets (f : BatchField) : f.counter ≠ .invalidPackets := by
  cases f with
  | packets l => cases l <;> decide
  | bytes l => cases l <;> decide

namespace LocalMetricsBatch

/-- The value of a field as `flush` adds it, `u32` fields widened to `u64`. -/
def get (b : LocalMetricsBatch) : BatchField → UInt64
  | .packets l => (b.packets l).toUInt64
  | .bytes l => b.bytes l

def reset (b : LocalMetricsBatch) : BatchField → LocalMetricsBatch
  | .packets l => { b with packets := Function.update b.packets l 0 }
  | .bytes l => { b with bytes := Function.update b.bytes l 0 }

/-- One `if` of `flush`: add the field to its counter and reset it. -/
def flushField (b : LocalMetricsBatch) (m : Metrics) (f : BatchField) :
    LocalMetricsBatch × Metrics :=
  if b.get f > 0 then (b.reset f, m.fetchAdd f.counter (b.get f)) else (b, m)

def flush (b : LocalMetricsBatch) (m : Metrics) : LocalMetricsBatch × Metrics :=
  BatchField.flushOrder.foldl (fun p f => flushField p.1 p.2 f) (b, m)

/-- The count of `maybe_flush`, before its test. -/
def count (b : LocalMetricsBatch) : LocalMetricsBatch :=
  { b with counter := b.counter + 1 }

def maybeFlush (b : LocalMetricsBatch) (m : Metrics) : LocalMetricsBatch × Metrics :=
  if b.count.counter % flushInterval = 0 then b.count.flush m else (b.count, m)

/-! ### What recording and flushing change -/

@[simp] theorem get_new (f : BatchField) : new.get f = 0 := by
  cases f <;> rfl

@[simp] theorem counter_record (b : LocalMetricsBatch) (l : Lane) (n : UInt64) :
    (b.record l n).counter = b.counter := rfl

@[simp] theorem get_count (b : LocalMetricsBatch) (f : BatchField) : b.count.get f = b.get f := by
  cases f <;> rfl

@[simp] theorem counter_count (b : LocalMetricsBatch) : b.count.counter = b.counter + 1 := rfl

/-- Recording is exact where the addition does not overflow. -/
theorem toNat_get_record (b : LocalMetricsBatch) {l : Lane} {n : UInt64}
    (hpackets : (b.get (.packets l)).toNat + 1 < 2 ^ 32)
    (hbytes : (b.get (.bytes l)).toNat + n.toNat < 2 ^ 64) (f : BatchField) :
    ((b.record l n).get f).toNat = (b.get f).toNat + f.amount l n.toNat := by
  cases f with
  | packets l' =>
    by_cases hl : l' = l
    · subst hl
      have hone : (1 : UInt32).toNat = 1 := rfl
      simp only [get, UInt32.toNat_toUInt64] at hpackets
      simp only [record, get, BatchField.amount, Function.update_self, UInt32.toNat_toUInt64,
        UInt32.toNat_add, hone, if_true]
      exact Nat.mod_eq_of_lt hpackets
    · simp [record, get, BatchField.amount, hl]
  | bytes l' =>
    by_cases hl : l' = l
    · subst hl
      simp only [get] at hbytes
      simp only [record, get, BatchField.amount, Function.update_self, UInt64.toNat_add, if_true]
      exact Nat.mod_eq_of_lt hbytes
    · simp [record, get, BatchField.amount, hl]

theorem get_reset (b : LocalMetricsBatch) (f g : BatchField) :
    (b.reset f).get g = if g = f then 0 else b.get g := by
  cases f with
  | packets l =>
    cases g with
    | packets l' => by_cases h : l' = l <;> simp [reset, get, h]
    | bytes l' => simp [reset, get]
  | bytes l =>
    cases g with
    | packets l' => simp [reset, get]
    | bytes l' => by_cases h : l' = l <;> simp [reset, get, h]

theorem get_flushField (b : LocalMetricsBatch) (m : Metrics) (f g : BatchField) :
    (b.flushField m f).1.get g = if g = f then 0 else b.get g := by
  unfold flushField
  split
  · exact get_reset b f g
  · rename_i hzero
    have hget : b.get f = 0 := UInt64.le_zero_iff.mp (UInt64.not_lt.mp hzero)
    split
    · rename_i heq
      rw [heq, hget]
    · rfl

@[simp] theorem counter_flushField (b : LocalMetricsBatch) (m : Metrics) (f : BatchField) :
    (b.flushField m f).1.counter = b.counter := by
  unfold flushField
  split
  · cases f <;> rfl
  · rfl

/-- Flushing a field adds it to its counter and to no other. -/
theorem count_flushField (b : LocalMetricsBatch) (m : Metrics) (f g : BatchField) :
    (b.flushField m f).2.count g.counter =
      if g = f then m.count g.counter + b.get g else m.count g.counter := by
  unfold flushField
  by_cases hg : g = f
  · subst hg
    split
    · simp [Metrics.fetchAdd]
    · rename_i hzero
      have hget : b.get g = 0 := UInt64.le_zero_iff.mp (UInt64.not_lt.mp hzero)
      simp [hget]
  · have hne : g.counter ≠ f.counter := fun h => hg (BatchField.counter_injective h)
    split
    · simp [Metrics.fetchAdd, hne]
    · simp

/-- Flushing touches no counter that is not one of a field. -/
theorem count_maybeFlush (b : LocalMetricsBatch) (m : Metrics) {c : Counter}
    (hc : ∀ f : BatchField, f.counter ≠ c) : (b.maybeFlush m).2.count c = m.count c := by
  have hfields : ∀ (fs : List BatchField) (p : LocalMetricsBatch × Metrics),
      (fs.foldl (fun p f => flushField p.1 p.2 f) p).2.count c = p.2.count c := by
    intro fs
    induction fs with
    | nil => intro p; rfl
    | cons f fs ih =>
      intro p
      rw [List.foldl_cons, ih]
      unfold flushField
      split
      · exact Function.update_of_ne (hc f).symm _ _
      · rfl
  unfold maybeFlush flush
  split
  · exact hfields _ _
  · rfl

end LocalMetricsBatch

end CncnetServer
