import CncnetServer.Metrics
import CncnetServer.Lib.Threads
import Mathlib.Data.Fintype.Basic
import Mathlib.Data.List.Infix

/-!
`metrics.rs`, the exporting half: `update_prometheus`, run by any number of scrapes
at a time while the counters it exports are counted up.

The function is a straight line of atomic accesses, so it is the list of them
(`updatePrometheus`), and a scrape is the part of the list it has still to run. An
exported counter is kept up to date by differences: what the scrapes between their
`swap` and their `inc_by` still owe makes up the rest to `last` (`Ledger`).

* `prometheus_exact`: in a run in which no `swap` stores an older value than the one
  it finds, an exported counter never exceeds its source, and a scrape that runs
  alone exports what it loaded;
* `prometheus_over_counts`: with one slow scrape it does exceed it.
-/

namespace CncnetServer

open Threads Runs

/-- The exported counters, under the names of the locals of `update_prometheus`. -/
inductive Exported
  | v3Rx | v3Tx | v3BytesRx | v3BytesTx
  | v2Rx | v2Tx | v2Http
  | rateLimits | droppedPkts | droppedConns
  deriving DecidableEq, Repr

/-- The counter that is exported. -/
def Exported.source : Exported → Counter
  | .v3Rx => .v3PacketsReceived
  | .v3Tx => .v3PacketsSent
  | .v3BytesRx => .v3BytesReceived
  | .v3BytesTx => .v3BytesSent
  | .v2Rx => .v2PacketsReceived
  | .v2Tx => .v2PacketsSent
  | .v2Http => .v2HttpRequests
  | .rateLimits => .rateLimitHits
  | .droppedPkts => .droppedPackets
  | .droppedConns => .droppedConnections

/-- `Metrics` with its `last_` and `prom_` fields; time is in nanoseconds. -/
structure ExportedMetrics extends Metrics where
  last : Exported → UInt64
  prom : Exported → UInt64
  promV3ActiveClients : Int64
  promV2ActiveClients : Int64
  promUptimeSeconds : Int64
  startTime : Nat
  clock : Nat

namespace ExportedMetrics

def new (now : Nat) : ExportedMetrics where
  toMetrics := Metrics.new
  last _ := 0
  prom _ := 0
  promV3ActiveClients := 0
  promV2ActiveClients := 0
  promUptimeSeconds := 0
  startTime := now
  clock := now

end ExportedMetrics

/-- `u64::saturating_sub`. -/
def saturatingSub (a b : UInt64) : UInt64 := if b ≤ a then a - b else 0

theorem toNat_saturatingSub (a b : UInt64) : (saturatingSub a b).toNat = a.toNat - b.toNat := by
  unfold saturatingSub
  split
  · rename_i h
    exact UInt64.toNat_sub_of_le _ _ h
  · rename_i h
    rw [UInt64.le_iff_toNat_le] at h
    have hzero : (0 : UInt64).toNat = 0 := rfl
    omega

/-! ## The scrapes -/

/-- One atomic access of `update_prometheus`. -/
inductive Access
  | load (x : Exported) | loadV3Clients | loadV2Clients
  | swap (x : Exported)
  | incBy (x : Exported) | setV3Clients | setV2Clients
  | setUptime
  deriving DecidableEq

def updatePrometheus : List Access :=
  [.load .v3Rx, .load .v3Tx, .load .v3BytesRx, .load .v3BytesTx, .loadV3Clients,
    .load .v2Rx, .load .v2Tx, .loadV2Clients, .load .v2Http,
    .load .rateLimits, .load .droppedPkts, .load .droppedConns,
    .swap .v3Rx, .swap .v3Tx, .swap .v3BytesRx, .swap .v3BytesTx,
    .swap .v2Rx, .swap .v2Tx, .swap .v2Http,
    .swap .rateLimits, .swap .droppedPkts, .swap .droppedConns,
    .incBy .v3Rx, .incBy .v3Tx, .incBy .v3BytesRx, .incBy .v3BytesTx, .setV3Clients,
    .incBy .v2Rx, .incBy .v2Tx, .setV2Clients, .incBy .v2Http,
    .incBy .rateLimits, .incBy .droppedPkts, .incBy .droppedConns,
    .setUptime]

/-- The locals of `update_prometheus`: what it has loaded, and what its swaps returned. -/
structure Locals where
  loaded : Exported → UInt64
  prev : Exported → UInt64
  v3Clients : Nat
  v2Clients : Nat

def Locals.start : Locals := ⟨fun _ => 0, fun _ => 0, 0, 0⟩

def Access.run (m : ExportedMetrics) (l : Locals) : Access → ExportedMetrics × Locals
  | .load x => (m, { l with loaded := Function.update l.loaded x (m.count x.source) })
  | .loadV3Clients => (m, { l with v3Clients := m.v3ActiveClients })
  | .loadV2Clients => (m, { l with v2Clients := m.v2ActiveClients })
  | .swap x =>
    ({ m with last := Function.update m.last x (l.loaded x) },
      { l with prev := Function.update l.prev x (m.last x) })
  | .incBy x =>
    ({ m with
      prom := Function.update m.prom x (m.prom x + saturatingSub (l.loaded x) (l.prev x)) }, l)
  | .setV3Clients => ({ m with promV3ActiveClients := Int64.ofNat l.v3Clients }, l)
  | .setV2Clients => ({ m with promV2ActiveClients := Int64.ofNat l.v2Clients }, l)
  | .setUptime =>
    ({ m with promUptimeSeconds := Int64.ofNat ((m.clock - m.startTime) / 10 ^ 9) }, l)

/-- A task: counting, or inside `update_prometheus` with this much left of it. -/
inductive Task
  | idle
  | scrape (locals : Locals) (rest : List Access)

inductive Task.Input
  | update
  | increment (c : Counter) (n : UInt64)
  | storeV3Clients (n : Nat) | storeV2Clients (n : Nat)
  | go

/-- The value of a counter that a scrape has loaded. -/
inductive Task.Shown
  | loaded (x : Exported) (v : UInt64)
  deriving DecidableEq

namespace Task

instance : (t : Task) → Decidable (t = .idle)
  | .idle => .isTrue rfl
  | .scrape _ _ => .isFalse (by simp)

def scrapeAt (locals : Locals) : List Access → Task
  | [] => .idle
  | rest => .scrape locals rest

/-- One step of a task. An input that does not fit leaves everything as it is. -/
def exec (m : ExportedMetrics) : Task → Input → ExportedMetrics × Task
  | .idle, .update => (m, .scrape .start updatePrometheus)
  | .idle, .increment c n => ({ m with toMetrics := m.fetchAdd c n }, .idle)
  | .idle, .storeV3Clients n => ({ m with v3ActiveClients := n }, .idle)
  | .idle, .storeV2Clients n => ({ m with v2ActiveClients := n }, .idle)
  | .scrape l (a :: rest), .go => ((a.run m l).1, scrapeAt (a.run m l).2 rest)
  | task, _ => (m, task)

def emit (m : ExportedMetrics) : Task → Input → List Shown
  | .scrape _ (.load x :: _), .go => [.loaded x (m.count x.source)]
  | _, _ => []

end Task

def scrapes : System ExportedMetrics Task Task.Input Task.Shown where
  exec := Task.exec
  emit := Task.emit
  tick m d := { m with clock := m.clock + d }

/-- A swap stores no older value than it finds, and no counter wraps. -/
def MonotoneAt (m : ExportedMetrics) : Task → Task.Input → Prop
  | .scrape l (.swap x :: _), .go => m.last x ≤ l.loaded x
  | .idle, .increment c n => (m.count c).toNat + n.toNat < 2 ^ 64
  | _, _ => True

instance (m : ExportedMetrics) (t : Task) (a : Task.Input) : Decidable (MonotoneAt m t a) := by
  unfold MonotoneAt
  split <;> infer_instance

/-! ## The order of the accesses -/

/-- Each counter is loaded, swapped and incremented once, in this order. -/
def Placed : List Access → Prop
  | .load x :: rest => .load x ∉ rest ∧ .swap x ∈ rest
  | .swap x :: rest => .load x ∉ rest ∧ .swap x ∉ rest ∧ .incBy x ∈ rest
  | .incBy x :: rest => .load x ∉ rest ∧ .swap x ∉ rest ∧ .incBy x ∉ rest
  | _ => True

instance : DecidablePred Placed := fun l => by
  unfold Placed
  split <;> infer_instance

theorem placed_of_suffix {l : List Access} (h : l <:+ updatePrometheus) : Placed l := by
  have hall : ∀ t ∈ updatePrometheus.tails, Placed t := by decide
  exact hall l ((List.mem_tails l updatePrometheus).mpr h)

theorem mem_updatePrometheus (x : Exported) :
    .load x ∈ updatePrometheus ∧ .swap x ∈ updatePrometheus := by
  cases x <;> decide

/-! ## What the scrapes owe -/

namespace Task

/-- The difference a scrape has taken into `last` and not yet added to `prom`. -/
def pending (x : Exported) : Task → Nat
  | .scrape l rest =>
    if .swap x ∉ rest ∧ .incBy x ∈ rest then (l.loaded x).toNat - (l.prev x).toNat else 0
  | .idle => 0

/-- A value that was loaded is not above the counter. -/
def Knows (m : ExportedMetrics) : Task → Prop
  | .scrape l rest => rest <:+ updatePrometheus ∧
    ∀ x, .load x ∉ rest → l.loaded x ≤ m.count x.source
  | .idle => True

theorem pending_of_swap {x : Exported} {l : Locals} {rest : List Access} (h : .swap x ∈ rest) :
    (scrape l rest).pending x = 0 := if_neg fun hnot => hnot.1 h

theorem pending_of_not_incBy {x : Exported} {l : Locals} {rest : List Access}
    (h : .incBy x ∉ rest) : (scrape l rest).pending x = 0 := if_neg fun hin => h hin.2

theorem pending_cons {x : Exported} {l : Locals} {a : Access} {rest : List Access}
    (hswap : a ≠ .swap x) (hinc : a ≠ .incBy x) :
    (scrape l (a :: rest)).pending x = (scrape l rest).pending x := by
  simp [pending, Ne.symm hswap, Ne.symm hinc]

@[simp] theorem pending_scrapeAt (x : Exported) (l : Locals) (rest : List Access) :
    (scrapeAt l rest).pending x = (scrape l rest).pending x := by
  cases rest with
  | nil => exact (pending_of_not_incBy (List.not_mem_nil)).symm
  | cons a rest => rfl

theorem knows_scrapeAt {m : ExportedMetrics} {l : Locals} {rest : List Access}
    (h : (scrape l rest).Knows m) : (scrapeAt l rest).Knows m := by
  cases rest with
  | nil => trivial
  | cons a rest => exact h

end Task

/-- What one step does to the books of a counter: nothing is lost between `last`,
`prom` and what its task owes. -/
structure Booked (m m' : ExportedMetrics) (t t' : Task) : Prop where
  total : ∀ x, (m'.prom x).toNat + t'.pending x + (m.last x).toNat =
    (m.prom x).toNat + t.pending x + (m'.last x).toNat
  last : ∀ x, m'.last x ≤ m'.count x.source
  count : ∀ x : Exported, m.count x.source ≤ m'.count x.source
  knows : t'.Knows m'

/-- A step that touches neither `last` nor `prom` nor what its task owes. -/
theorem Booked.quiet {m m' : ExportedMetrics} {t t' : Task}
    (hlast : ∀ x, m.last x ≤ m.count x.source) (hlast' : m'.last = m.last) (hprom : m'.prom = m.prom)
    (hcount : ∀ x : Exported, m.count x.source ≤ m'.count x.source)
    (hpending : ∀ x, t'.pending x = t.pending x) (hknows : t'.Knows m') : Booked m m' t t' where
  total x := by rw [hlast', hprom, hpending x]
  last x := by
    rw [hlast']
    exact UInt64.le_trans (hlast x) (hcount x)
  count := hcount
  knows := hknows

theorem count_le_fetchAdd (m : Metrics) {c : Counter} {n : UInt64}
    (h : (m.count c).toNat + n.toNat < 2 ^ 64) (d : Counter) :
    m.count d ≤ (m.fetchAdd c n).count d := by
  by_cases hd : d = c
  · subst hd
    have hself : (m.fetchAdd d n).count d = m.count d + n := Function.update_self _ _ _
    rw [UInt64.le_iff_toNat_le, hself, UInt64.toNat_add, Nat.mod_eq_of_lt h]
    omega
  · have hother : (m.fetchAdd c n).count d = m.count d := Function.update_of_ne hd _ _
    rw [hother]
    exact UInt64.le_refl _

/-- One access of a scrape keeps the books. -/
theorem access_booked {m : ExportedMetrics} {l : Locals} {a : Access} {rest : List Access}
    (hC : MonotoneAt m (.scrape l (a :: rest)) .go)
    (hk : (Task.scrape l (a :: rest)).Knows m) (hlast : ∀ x, m.last x ≤ m.count x.source)
    (hroom : ∀ x, (m.prom x).toNat + (Task.scrape l (a :: rest)).pending x < 2 ^ 64) :
    Booked m (a.run m l).1 (.scrape l (a :: rest)) (.scrape (a.run m l).2 rest) := by
  have hplaced := placed_of_suffix hk.1
  have hrest : rest <:+ updatePrometheus := (List.suffix_cons a rest).trans hk.1
  have hrefl : ∀ x : Exported, m.count x.source ≤ m.count x.source := fun x => UInt64.le_refl _
  -- an access of the gauges
  have hgauge : ∀ m' l', m'.last = m.last → m'.prom = m.prom → m'.count = m.count →
      l'.loaded = l.loaded → l'.prev = l.prev → (∀ x, a ≠ .load x) → (∀ x, a ≠ .swap x) →
      (∀ x, a ≠ .incBy x) → Booked m m' (.scrape l (a :: rest)) (.scrape l' rest) := by
    intro m' l' hl hp hc hld hpv hload hswap hinc
    refine .quiet hlast hl hp (fun x => by rw [hc]; exact UInt64.le_refl _) (fun x => ?_)
      ⟨hrest, fun x hx => ?_⟩
    · rw [Task.pending_cons (hswap x) (hinc x)]
      simp only [Task.pending, hld, hpv]
    · rw [hld, hc]
      exact hk.2 x (by simp [Ne.symm (hload x), hx])
  cases a with
  | load y =>
    refine .quiet hlast rfl rfl hrefl (fun x => ?_) ⟨hrest, fun x hx => ?_⟩
    · rw [Task.pending_cons (by simp) (by simp)]
      by_cases hxy : x = y
      · subst hxy
        rw [Task.pending_of_swap hplaced.2, Task.pending_of_swap hplaced.2]
      · simp only [Access.run, Task.pending, Function.update_of_ne hxy]
    · by_cases hxy : x = y
      · subst hxy
        simp only [Access.run, Function.update_self]
        exact UInt64.le_refl _
      · simp only [Access.run, Function.update_of_ne hxy]
        exact hk.2 x (by simp [hxy, hx])
  | swap y =>
    obtain ⟨hload, hswap, hinc⟩ := hplaced
    have hy : l.loaded y ≤ m.count y.source := hk.2 y (by simp [hload])
    refine ⟨fun x => ?_, fun x => ?_, hrefl, hrest, fun x hx => hk.2 x (by simp [hx])⟩
    · by_cases hxy : x = y
      · subst hxy
        have hmono : (m.last x).toNat ≤ (l.loaded x).toNat := UInt64.le_iff_toNat_le.mp hC
        have howed : (Task.scrape ((Access.swap x).run m l).2 rest).pending x =
            (l.loaded x).toNat - (m.last x).toNat := by
          simp [Access.run, Task.pending, hswap, hinc]
        rw [howed, Task.pending_of_swap (List.mem_cons_self)]
        simp only [Access.run, Function.update_self]
        omega
      · rw [Task.pending_cons (by simp [Ne.symm hxy]) (by simp)]
        simp only [Access.run, Task.pending, Function.update_of_ne hxy]
    · by_cases hxy : x = y
      · subst hxy
        simp only [Access.run, Function.update_self]
        exact hy
      · simp only [Access.run, Function.update_of_ne hxy]
        exact hlast x
  | incBy y =>
    obtain ⟨_, hswap, hinc⟩ := hplaced
    refine ⟨fun x => ?_, hlast, hrefl, hrest, fun x hx => hk.2 x (by simp [hx])⟩
    by_cases hxy : x = y
    · subst hxy
      have howed : (Task.scrape l (.incBy x :: rest)).pending x =
          (l.loaded x).toNat - (l.prev x).toNat := by simp [Task.pending, hswap]
      have hfits := hroom x
      rw [howed] at hfits
      rw [howed, Task.pending_of_not_incBy hinc]
      simp only [Access.run, Function.update_self]
      rw [UInt64.toNat_add, toNat_saturatingSub, Nat.mod_eq_of_lt hfits]
      omega
    · rw [Task.pending_cons (by simp) (by simp [Ne.symm hxy])]
      simp only [Access.run, Task.pending, Function.update_of_ne hxy]
  | loadV3Clients => exact hgauge _ _ rfl rfl rfl rfl rfl (by simp) (by simp) (by simp)
  | loadV2Clients => exact hgauge _ _ rfl rfl rfl rfl rfl (by simp) (by simp) (by simp)
  | setV3Clients => exact hgauge _ _ rfl rfl rfl rfl rfl (by simp) (by simp) (by simp)
  | setV2Clients => exact hgauge _ _ rfl rfl rfl rfl rfl (by simp) (by simp) (by simp)
  | setUptime => exact hgauge _ _ rfl rfl rfl rfl rfl (by simp) (by simp) (by simp)

theorem exec_booked {m : ExportedMetrics} {t : Task} {a : Task.Input} (hC : MonotoneAt m t a)
    (hk : t.Knows m) (hlast : ∀ x, m.last x ≤ m.count x.source)
    (hroom : ∀ x, (m.prom x).toNat + t.pending x < 2 ^ 64) :
    Booked m (Task.exec m t a).1 t (Task.exec m t a).2 := by
  have hrefl : ∀ x : Exported, m.count x.source ≤ m.count x.source := fun x => UInt64.le_refl _
  cases t with
  | idle =>
    have hidle : ∀ m', m'.last = m.last → m'.prom = m.prom →
        (∀ x : Exported, m.count x.source ≤ m'.count x.source) → Booked m m' .idle .idle :=
      fun m' hl hp hc => .quiet hlast hl hp hc (fun x => rfl) trivial
    cases a with
    | update =>
      refine .quiet hlast rfl rfl hrefl (fun x => ?_) ⟨List.suffix_refl _, fun x hx => ?_⟩
      · exact Task.pending_of_swap (mem_updatePrometheus x).2
      · exact absurd (mem_updatePrometheus x).1 hx
    | increment c n => exact hidle _ rfl rfl fun x => count_le_fetchAdd m.toMetrics hC x.source
    | storeV3Clients n => exact hidle _ rfl rfl hrefl
    | storeV2Clients n => exact hidle _ rfl rfl hrefl
    | go => exact hidle _ rfl rfl hrefl
  | scrape l rest =>
    have hsame : Booked m m (.scrape l rest) (.scrape l rest) :=
      .quiet hlast rfl rfl hrefl (fun x => rfl) hk
    cases a with
    | go =>
      cases rest with
      | nil => exact hsame
      | cons a rest =>
        have hbooked := access_booked hC hk hlast hroom
        refine ⟨fun x => ?_, hbooked.last, hbooked.count, Task.knows_scrapeAt hbooked.knows⟩
        have htotal := hbooked.total x
        rw [← Task.pending_scrapeAt] at htotal
        exact htotal
    | _ => cases rest <;> exact hsame

/-! ## A scrape alone -/

section Alone

/-- What a scrape that runs alone has shown to have loaded, and has stored in `last`. -/
def Task.Reports (m : ExportedMetrics) (shown : Exported → UInt64 → Prop) : Task → Prop
  | .scrape l rest => rest <:+ updatePrometheus ∧
    ∀ x, (∀ v, shown x v ↔ .load x ∉ rest ∧ v = l.loaded x) ∧
      (.swap x ∉ rest → m.last x = l.loaded x)
  | .idle => ∀ x v, shown x v ↔ v = m.last x

theorem Task.reports_scrapeAt {m : ExportedMetrics} {shown : Exported → UInt64 → Prop} {l : Locals}
    {rest : List Access} (h : (scrape l rest).Reports m shown) :
    (scrapeAt l rest).Reports m shown := by
  cases rest with
  | nil =>
    intro x v
    have hlast := (h.2 x).2 List.not_mem_nil
    rw [(h.2 x).1 v, hlast]
    simp
  | cons a rest => exact h

/-- One access of a scrape that runs alone. -/
theorem access_reports {m : ExportedMetrics} {shown shown' : Exported → UInt64 → Prop} {l : Locals}
    {a : Access} {rest : List Access} (h : (Task.scrape l (a :: rest)).Reports m shown)
    (hshown : ∀ x v, shown' x v ↔ shown x v ∨ (a = .load x ∧ v = m.count x.source)) :
    (Task.scrape (a.run m l).2 rest).Reports (a.run m l).1 shown' := by
  have hplaced := placed_of_suffix h.1
  refine ⟨(List.suffix_cons a rest).trans h.1, fun x => ?_⟩
  have hloads := (h.2 x).1
  have hlast := (h.2 x).2
  -- an access that is neither the load nor the swap of `x`
  have hquiet : a ≠ .load x → a ≠ .swap x → (a.run m l).1.last x = m.last x →
      (a.run m l).2.loaded x = l.loaded x →
      (∀ v, shown' x v ↔ .load x ∉ rest ∧ v = (a.run m l).2.loaded x) ∧
        (.swap x ∉ rest → (a.run m l).1.last x = (a.run m l).2.loaded x) := by
    intro hload hswap hl hld
    rw [hl, hld]
    refine ⟨fun v => ?_, fun hx => hlast (by simp [Ne.symm hswap, hx])⟩
    rw [hshown, hloads]
    simp [hload, Ne.symm hload]
  cases a with
  | load y =>
    by_cases hxy : x = y
    · subst hxy
      refine ⟨fun v => ?_, fun hx => absurd hplaced.2 hx⟩
      rw [hshown, hloads]
      simp [Access.run, hplaced.1]
    · exact hquiet (by simp [Ne.symm hxy]) (by simp) rfl (Function.update_of_ne hxy _ _)
  | swap y =>
    by_cases hxy : x = y
    · subst hxy
      refine ⟨fun v => ?_, fun _ => Function.update_self _ _ _⟩
      rw [hshown, hloads]
      simp [Access.run]
    · exact hquiet (by simp) (by simp [Ne.symm hxy]) (Function.update_of_ne hxy _ _) rfl
  | _ => exact hquiet (by simp) (by simp) rfl rfl

variable {ι : Type}

/-- Only task `i` is in a scrape. -/
structure Alone (i : ι) (tr : List (ι × Task.Shown)) (p : Pool ι ExportedMetrics Task) : Prop where
  others : ∀ j, j ≠ i → p.thread j = .idle
  reports : (p.thread i).Reports p.shared fun x v => (i, .loaded x v) ∈ tr

/-- A step of an idle task that starts no scrape. -/
theorem idle_step (m : ExportedMetrics) {a : Task.Input} (h : a ≠ .update) :
    (Task.exec m .idle a).2 = .idle ∧ (Task.exec m .idle a).1.last = m.last ∧
      Task.emit m .idle a = [] := by
  cases a with
  | update => exact absurd rfl h
  | _ => exact ⟨rfl, rfl, rfl⟩

theorem Task.Reports.of_last {m m' : ExportedMetrics} {shown : Exported → UInt64 → Prop} {t : Task}
    (h : t.Reports m shown) (hlast : m'.last = m.last) : t.Reports m' shown := by
  cases t with
  | idle =>
    intro x v
    rw [hlast]
    exact h x v
  | scrape l rest =>
    refine ⟨h.1, fun x => ⟨(h.2 x).1, fun hx => ?_⟩⟩
    rw [hlast]
    exact (h.2 x).2 hx

theorem mem_emit_scrape (m : ExportedMetrics) (l : Locals) (a : Access) (rest : List Access) (i : ι)
    (x : Exported) (v : UInt64) :
    (i, .loaded x v) ∈ (Task.emit m (.scrape l (a :: rest)) .go).map (Prod.mk i) ↔
      a = .load x ∧ v = m.count x.source := by
  cases a with
  | load y =>
    simp only [Task.emit, List.map_cons, List.map_nil, List.mem_singleton, Prod.mk.injEq, true_and,
      Task.Shown.loaded.injEq, Access.load.injEq]
    constructor
    · rintro ⟨rfl, rfl⟩
      exact ⟨rfl, rfl⟩
    · rintro ⟨rfl, rfl⟩
      exact ⟨rfl, rfl⟩
  | _ => simp [Task.emit]

theorem exec_reports {m : ExportedMetrics} {t : Task} {a : Task.Input} {i : ι}
    {tr : List (ι × Task.Shown)} (h : t.Reports m fun x v => (i, .loaded x v) ∈ tr)
    (ha : a ≠ .update) :
    (Task.exec m t a).2.Reports (Task.exec m t a).1
      fun x v => (i, .loaded x v) ∈ tr ++ (Task.emit m t a).map (Prod.mk i) := by
  cases t with
  | idle =>
    obtain ⟨hthread, hlast, hemit⟩ := idle_step m ha
    rw [hthread, hemit, List.map_nil, List.append_nil]
    exact h.of_last hlast
  | scrape l rest =>
    cases a with
    | go =>
      cases rest with
      | nil => simpa [Task.exec, Task.emit] using h
      | cons a rest =>
        refine Task.reports_scrapeAt (access_reports h fun x v => ?_)
        rw [List.mem_append, mem_emit_scrape]
    | _ => cases rest <;> simpa [Task.exec, Task.emit] using h

variable [DecidableEq ι]

theorem alone_step {i : ι} {tr : List (ι × Task.Shown)} {p : Pool ι ExportedMetrics Task}
    (h : Alone i tr p) {a : Action ι Task.Input} (ha : ∀ j, a ≠ .work j .update) :
    Alone i (tr ++ scrapes.machine.emit p a) (scrapes.machine.step p a) := by
  cases a with
  | tick d =>
    rw [System.emit_tick, List.append_nil]
    exact ⟨h.others, h.reports.of_last rfl⟩
  | work j a =>
    have hne : a ≠ .update := by
      rintro rfl
      exact ha j rfl
    by_cases hj : j = i
    · subst hj
      refine ⟨fun k hk => ?_, ?_⟩
      · exact (Function.update_of_ne hk _ _).trans (h.others k hk)
      · show ((Function.update p.thread j (Task.exec p.shared (p.thread j) a).2) j).Reports _ _
        rw [Function.update_self]
        exact exec_reports h.reports hne
    · have hidle := h.others j hj
      obtain ⟨hthread, hlast, hemit⟩ := idle_step p.shared hne
      have hemit' : scrapes.machine.emit p (.work j a) = [] := by
        show (Task.emit p.shared (p.thread j) a).map (Prod.mk j) = []
        rw [hidle, hemit, List.map_nil]
      rw [hemit', List.append_nil]
      refine ⟨fun k hk => ?_, ?_⟩
      · show Function.update p.thread j (Task.exec p.shared (p.thread j) a).2 k = .idle
        by_cases hkj : k = j
        · subst hkj
          rw [Function.update_self, hidle, hthread]
        · rw [Function.update_of_ne hkj]
          exact h.others k hk
      · show ((Function.update p.thread j (Task.exec p.shared (p.thread j) a).2) i).Reports
          (Task.exec p.shared (p.thread j) a).1 _
        rw [Function.update_of_ne (Ne.symm hj), hidle]
        exact h.reports.of_last hlast

/-- A scrape that starts while no other is in progress is alone. -/
theorem alone_update {p : Pool ι ExportedMetrics Task} (hidle : ∀ j, p.thread j = .idle) (i : ι) :
    Alone i [] (scrapes.machine.step p (.work i .update)) := by
  refine ⟨fun j hj => ?_, ?_⟩
  · exact (Function.update_of_ne hj _ _).trans (hidle j)
  · show (Function.update p.thread i (Task.exec p.shared (p.thread i) .update).2 i).Reports
      (Task.exec p.shared (p.thread i) .update).1 _
    rw [Function.update_self, hidle]
    refine ⟨List.suffix_refl _, fun x => ⟨fun v => ?_, fun hx => ?_⟩⟩
    · simp [(mem_updatePrometheus x).1]
    · exact absurd (mem_updatePrometheus x).2 hx

end Alone

/-! ## Runs -/

section Run

variable {ι : Type} [Fintype ι] [DecidableEq ι]

/-- Fresh metrics, no scrape in progress. -/
structure Started (p : Pool ι ExportedMetrics Task) : Prop where
  metrics : p.shared = ExportedMetrics.new p.shared.clock
  idle : ∀ i, p.thread i = .idle

/-- The books of all counters: `prom` and what the scrapes owe make up `last`. -/
structure Ledger (p : Pool ι ExportedMetrics Task) : Prop where
  total : ∀ x, (p.shared.prom x).toNat + ∑ i, (p.thread i).pending x = (p.shared.last x).toNat
  last : ∀ x, p.shared.last x ≤ p.shared.count x.source
  knows : ∀ i, (p.thread i).Knows p.shared

/-- What a task knows survives the steps of others. -/
theorem Task.Knows.mono {m m' : ExportedMetrics} {t : Task} (h : t.Knows m)
    (hcount : ∀ x : Exported, m.count x.source ≤ m'.count x.source) : t.Knows m' := by
  cases t with
  | idle => trivial
  | scrape l rest => exact ⟨h.1, fun x hx => UInt64.le_trans (h.2 x hx) (hcount x)⟩

theorem ledger_step {p : Pool ι ExportedMetrics Task} (h : Ledger p) {a : Action ι Task.Input}
    (hC : System.OnWork MonotoneAt p a) : Ledger (scrapes.machine.step p a) := by
  cases a with
  | tick d =>
    refine ⟨h.total, h.last, fun i => (h.knows i).mono fun x => UInt64.le_refl _⟩
  | work i a =>
    have hroom : ∀ x, (p.shared.prom x).toNat + (p.thread i).pending x < 2 ^ 64 := by
      intro x
      have hsum := Finset.add_sum_erase Finset.univ (fun j => (p.thread j).pending x)
        (Finset.mem_univ i)
      have htotal := h.total x
      have hlt := (p.shared.last x).toNat_lt
      omega
    have hbooked := exec_booked (a := a) hC (h.knows i) h.last hroom
    refine ⟨fun x => ?_, hbooked.last, fun j => ?_⟩
    · have hsum := sum_update_local Finset.univ (Finset.mem_univ i) (Task.pending x) p.thread
        (Task.exec p.shared (p.thread i) a).2
      have hstep := hbooked.total x
      have htotal := h.total x
      show ((Task.exec p.shared (p.thread i) a).1.prom x).toNat +
        ∑ j, (Function.update p.thread i (Task.exec p.shared (p.thread i) a).2 j).pending x =
          ((Task.exec p.shared (p.thread i) a).1.last x).toNat
      omega
    · show (Function.update p.thread i (Task.exec p.shared (p.thread i) a).2 j).Knows
        (Task.exec p.shared (p.thread i) a).1
      by_cases hj : j = i
      · subst hj
        rw [Function.update_self]
        exact hbooked.knows
      · rw [Function.update_of_ne hj]
        exact (h.knows j).mono hbooked.count

theorem ledger_run {p : Pool ι ExportedMetrics Task} (hstart : Started p)
    {as : List (Action ι Task.Input)} (hC : scrapes.machine.Along (System.OnWork MonotoneAt) p as) :
    Ledger (scrapes.machine.run p as) := by
  refine Machine.run_induction _ (C := System.OnWork MonotoneAt) ⟨fun x => ?_, fun x => ?_, fun i => ?_⟩
    (fun q a hq ha => ledger_step hq ha) as hC
  · have hzero : ∑ i, (p.thread i).pending x = 0 :=
      Finset.sum_eq_zero fun i _ => by rw [hstart.idle i]; rfl
    rw [hzero, hstart.metrics]
    rfl
  · rw [hstart.metrics]
    exact UInt64.le_refl _
  · rw [hstart.idle i]
    trivial

/-- **Exported counters do not over-count**, in every run in which no `swap` stores an
older value than it finds (and no counter wraps): an exported counter is at most its
source, and after a scrape that ran alone it is the value that scrape loaded. -/
theorem prometheus_exact {p : Pool ι ExportedMetrics Task} (hstart : Started p)
    {as : List (Action ι Task.Input)}
    (hC : scrapes.machine.Along (System.OnWork MonotoneAt) p as) :
    let M := scrapes.machine (ι := ι)
    (∀ x, (M.run p as).shared.prom x ≤ (M.run p as).shared.count x.source) ∧
    (∀ before i during, as = before ++ .work i .update :: during →
      (∀ j, (M.run p before).thread j = .idle) → (∀ a ∈ during, ∀ j, a ≠ .work j .update) →
      (M.run p as).thread i = .idle →
      ∀ x v, (i, .loaded x v) ∈ M.trace (M.run p (before ++ [.work i .update])) during ↔
        v = (M.run p as).shared.prom x) := by
  intro M
  have hledger : Ledger (M.run p as) := ledger_run hstart hC
  refine ⟨fun x => ?_, ?_⟩
  · have htotal := hledger.total x
    have hlast := UInt64.le_iff_toNat_le.mp (hledger.last x)
    exact UInt64.le_iff_toNat_le.mpr (by omega)
  · rintro before i during rfl hidle hduring hdone x v
    have hrun : M.run p (before ++ .work i .update :: during) =
        M.run (M.run p (before ++ [.work i .update])) during := by
      rw [← Machine.run_append, List.append_assoc]
      rfl
    have h0 : Alone i [] (M.run p (before ++ [.work i .update])) := by
      rw [Machine.run_snoc]
      exact alone_update hidle i
    have halone := M.run_trace_induction (C := fun _ a => ∀ j, a ≠ .work j .update) h0
      (fun tr q a h ha => alone_step h ha) during (M.along_of_mem hduring _)
    rw [hrun] at hledger hdone ⊢
    have hreports := halone.reports
    rw [hdone] at hreports
    refine (hreports x v).trans ?_
    -- all tasks are idle, so nothing is owed
    have hzero : ∑ j, ((M.run (M.run p (before ++ [.work i .update])) during).thread j).pending x =
        0 := by
      refine Finset.sum_eq_zero fun j _ => ?_
      by_cases hj : j = i
      · rw [hj, hdone]
        rfl
      · rw [halone.others j hj]
        rfl
    have htotal := hledger.total x
    rw [hzero, Nat.add_zero] at htotal
    rw [UInt64.toNat_inj.mp htotal]

end Run

/-! ## Concrete runs -/

def freshPool (ι : Type) : Pool ι ExportedMetrics Task := ⟨.new 0, fun _ => .idle⟩

def accesses {ι : Type} (i : ι) (n : Nat) : List (Action ι Task.Input) :=
  List.replicate n (.work i .go)

/-- Two scrapes overlap while packets are counted: the first to load swaps first, and the
second stores first. -/
def overlapping : List (Action (Fin 3) Task.Input) :=
  [.work 0 (.increment .v3PacketsReceived 10), .work 1 .update] ++ accesses 1 12 ++
    [.work 0 (.increment .v3PacketsReceived 5), .work 2 .update] ++ accesses 2 12 ++
    accesses 1 10 ++ accesses 2 23 ++ accesses 1 13

/-- After both, a third scrape runs alone. -/
theorem prometheus_exact_overlapping :
    (scrapes.machine.run (freshPool (Fin 3))
        (overlapping ++ .work 1 .update :: accesses 1 35)).shared.prom .v3Rx = 15 ∧
    (∀ x, (scrapes.machine.run (freshPool (Fin 3))
        (overlapping ++ .work 1 .update :: accesses 1 35)).shared.prom x ≤
      (scrapes.machine.run (freshPool (Fin 3))
        (overlapping ++ .work 1 .update :: accesses 1 35)).shared.count x.source) ∧
    ∀ x v, (1, .loaded x v) ∈ scrapes.machine.trace (scrapes.machine.run (freshPool (Fin 3))
        (overlapping ++ [.work 1 .update])) (accesses 1 35) ↔
      v = (scrapes.machine.run (freshPool (Fin 3))
        (overlapping ++ .work 1 .update :: accesses 1 35)).shared.prom x := by
  have hC : scrapes.machine.Along (System.OnWork MonotoneAt) (freshPool (Fin 3))
      (overlapping ++ .work 1 .update :: accesses 1 35) := by decide +kernel
  have hidle : ∀ j, (scrapes.machine.run (freshPool (Fin 3)) overlapping).thread j = .idle := by
    decide +kernel
  have hdone : (scrapes.machine.run (freshPool (Fin 3))
      (overlapping ++ .work 1 .update :: accesses 1 35)).thread 1 = .idle := by decide +kernel
  obtain ⟨hle, halone⟩ := prometheus_exact (p := freshPool (Fin 3)) ⟨rfl, fun _ => rfl⟩ hC
  refine ⟨by decide +kernel, hle, halone _ 1 _ rfl hidle (fun a ha j heq => ?_) hdone⟩
  rw [List.eq_of_mem_replicate ha] at heq
  cases heq

/-- A scrape loads 10; another one runs to its end with 20; the first one then stores
10 over 20 in `last`, and the next scrape exports the difference a second time. -/
theorem prometheus_over_counts :
    let M := scrapes.machine
    let received := Action.work true (Task.Input.increment .v3PacketsReceived 10)
    let as := [received, .work false .update] ++ accesses false 12 ++
      [received, .work true .update] ++ accesses true 35 ++ accesses false 23 ++
      .work true .update :: accesses true 35
    (M.run (freshPool Bool) as).shared.count .v3PacketsReceived = 20 ∧
      (M.run (freshPool Bool) as).shared.prom .v3Rx = 30 := by
  decide +kernel

end CncnetServer
