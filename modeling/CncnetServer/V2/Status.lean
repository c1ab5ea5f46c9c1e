import CncnetServer.Occupancy
import CncnetServer.V2.HttpAccounts
import Mathlib.Data.Finset.Image
import Mathlib.Algebra.Order.Ring.Nat

/-!
`/status` and `/request` of the V2 tunnel: what the one says of the other.

* `read_handleStatus`: the text of `/status` reads back;
* `length_allocateIds`: how many ids a list of draws gives;
* `status_predicts_requests`: which requests for slots are granted, and what `/status` says
  after them.
-/

namespace CncnetServer.TunnelV2

open Runs

variable {C R A : Type} (core : RelayCore C A) (rater : Rater R)

/-! ## The text of `/status` -/

structure Status where
  free : Nat
  inUse : Nat
  dropped : Nat
  deriving DecidableEq, Repr

/-- The number that a line begins with, if `text` is the rest. -/
def readLine (text : String) (line : List Char) : Option Nat :=
  if line.dropWhile Char.isDigit = text.toList then
    Decimal.parseNat (line.takeWhile Char.isDigit)
  else none

def Status.read (body : List Char) : Option Status :=
  match body.splitOn '\n' with
  | [free, inUse, dropped, []] => do
    some {
      free := ← readLine " slots free." free
      inUse := ← readLine " slots in use." inUse
      dropped := ← readLine " connections dropped." dropped }
  | _ => none

def status (t : TunnelV2 C R) : Status where
  free := t.maxClients - t.mappings.len
  inUse := t.mappings.len
  dropped := t.droppedConnections.toNat

theorem isDigit_toDigits (n : Nat) : ∀ c ∈ Nat.toDigits 10 n, c.isDigit = true := fun _ hc =>
  Nat.isDigit_of_mem_toDigits (by decide) (by decide) hc

theorem readLine_append (n : Nat) (text : String) (htext : text.toList.head?.all (!·.isDigit)) :
    readLine text (Nat.toDigits 10 n ++ text.toList) = some n := by
  have hrest : text.toList.takeWhile Char.isDigit = [] ∧
      text.toList.dropWhile Char.isDigit = text.toList := by
    cases hlist : text.toList with
    | nil => simp
    | cons c cs =>
      rw [hlist] at htext
      simp only [List.head?_cons, Option.all_some, Bool.not_eq_true'] at htext
      simp [htext]
  unfold readLine
  rw [List.dropWhile_append_of_pos (isDigit_toDigits n), hrest.2, if_pos rfl,
    List.takeWhile_append_of_pos (isDigit_toDigits n), hrest.1, List.append_nil]
  exact Decimal.parseNat_toDigits n

/-- **Round trip.** The text of `/status` reads back as what the tunnel has. -/
theorem read_handleStatus (t : TunnelV2 C R) :
    Status.read (handleStatus t).body = some (status t) := by
  let line (n : Nat) (text : String) : List Char := Nat.toDigits 10 n ++ text.toList
  have hline : ∀ n (text : String), '\n' ∉ text.toList → '\n' ∉ line n text := by
    intro n text htext hmem
    rcases List.mem_append.mp hmem with hmem | hmem
    · exact absurd (isDigit_toDigits n _ hmem) (by decide)
    · exact htext hmem
  have hbody : (handleStatus t).body = List.intercalate ['\n']
      [line (status t).free " slots free.", line (status t).inUse " slots in use.",
        line (status t).dropped " connections dropped.", []] := by
    simp [handleStatus, status, line, String.toList_append, List.intercalate_cons_cons]
  have hsplit : (handleStatus t).body.splitOn '\n' =
      [line (status t).free " slots free.", line (status t).inUse " slots in use.",
        line (status t).dropped " connections dropped.", []] := by
    rw [hbody]
    refine List.splitOn_intercalate '\n' ?_ (List.cons_ne_nil _ _)
    intro l hl
    simp only [List.mem_cons, List.not_mem_nil, or_false] at hl
    rcases hl with rfl | rfl | rfl | rfl
    · exact hline _ _ (by decide)
    · exact hline _ _ (by decide)
    · exact hline _ _ (by decide)
    · exact List.not_mem_nil
  unfold Status.read
  rw [hsplit]
  simp only [line, readLine_append _ " slots free." (by decide),
    readLine_append _ " slots in use." (by decide),
    readLine_append _ " connections dropped." (by decide), Option.bind_eq_bind, Option.bind_some]

/-! ## How many ids the draws give -/

/-- The free ids among the first draws. -/
def freshDraws (attempts : Nat) (draws : Nat → Int16) (m : DashMap Int16 C) : Finset Int16 :=
  ((Finset.range attempts).image draws).filter fun id => id ≠ 0 ∧ id ∉ m

theorem mem_freshDraws {attempts : Nat} {draws : Nat → Int16} {m : DashMap Int16 C} {id : Int16} :
    id ∈ freshDraws attempts draws m ↔ (∃ i < attempts, draws i = id) ∧ id ≠ 0 ∧ id ∉ m := by
  simp [freshDraws]

theorem mem_freshDraws_succ {attempts : Nat} {draws : Nat → Int16} {m : DashMap Int16 C}
    {id : Int16} :
    id ∈ freshDraws (attempts + 1) draws m ↔
      (id = draws 0 ∧ id ≠ 0 ∧ id ∉ m) ∨ id ∈ freshDraws attempts (fun n => draws (n + 1)) m := by
  rw [mem_freshDraws, mem_freshDraws]
  constructor
  · rintro ⟨⟨i, hi, rfl⟩, hfresh⟩
    cases i with
    | zero => exact Or.inl ⟨rfl, hfresh⟩
    | succ i => exact Or.inr ⟨⟨i, by omega, rfl⟩, hfresh⟩
  · rintro (⟨rfl, hfresh⟩ | ⟨⟨i, hi, rfl⟩, hfresh⟩)
    · exact ⟨⟨0, by omega, rfl⟩, hfresh⟩
    · exact ⟨⟨i + 1, by omega, rfl⟩, hfresh⟩

/-- A free id that is drawn first counts once, however often it is drawn again. -/
theorem card_freshDraws_succ {attempts : Nat} {draws : Nat → Int16} {m : DashMap Int16 C}
    (hfresh : draws 0 ≠ 0 ∧ draws 0 ∉ m) (c : C) :
    (freshDraws (attempts + 1) draws m).card =
      (freshDraws attempts (fun n => draws (n + 1)) (m.insert (draws 0) c)).card + 1 := by
  have hnot : draws 0 ∉ freshDraws attempts (fun n => draws (n + 1)) (m.insert (draws 0) c) := by
    rw [mem_freshDraws]
    rintro ⟨_, _, hnot⟩
    exact hnot (DashMap.mem_insert.mpr (Or.inl rfl))
  have hinsert : freshDraws (attempts + 1) draws m = insert (draws 0)
      (freshDraws attempts (fun n => draws (n + 1)) (m.insert (draws 0) c)) := by
    ext id
    rw [mem_freshDraws_succ, Finset.mem_insert, mem_freshDraws, mem_freshDraws, DashMap.mem_insert]
    constructor
    · rintro (⟨rfl, _⟩ | ⟨hdrawn, hne, hid⟩)
      · exact Or.inl rfl
      · by_cases heq : id = draws 0
        · exact Or.inl heq
        · exact Or.inr ⟨hdrawn, hne, fun h => h.elim heq hid⟩
    · rintro (rfl | ⟨hdrawn, hne, hid⟩)
      · exact Or.inl ⟨rfl, hfresh⟩
      · exact Or.inr ⟨hdrawn, hne, fun h => hid (Or.inr h)⟩
  rw [hinsert, Finset.card_insert_of_notMem hnot]

/-- **The draws decide.** The loop finds as many ids as it wants, or all that are drawn. The
induction is on the attempts that are left. -/
theorem length_allocateIds (now clients left : Nat) (draws : Nat → Int16) (m : DashMap Int16 C)
    (strs : List (List Char)) :
    (allocateIds core now clients left draws m strs).2.length =
      strs.length + min (clients - strs.length) (freshDraws left draws m).card := by
  induction left generalizing draws m strs with
  | zero => simp [allocateIds, freshDraws]
  | succ left ih =>
    unfold allocateIds
    by_cases hlen : strs.length < clients
    · rw [if_pos hlen]
      dsimp only
      by_cases hfree : draws 0 ≠ 0 ∧ !m.containsKey (draws 0)
      · have hnot : draws 0 ∉ m := by simpa [DashMap.containsKey] using hfree.2
        rw [if_pos hfree, ih, card_freshDraws_succ ⟨hfree.1, hnot⟩ (core.new now),
          List.length_append, List.length_singleton]
        omega
      · have hsame : freshDraws (left + 1) draws m =
            freshDraws left (fun n => draws (n + 1)) m := by
          ext id
          rw [mem_freshDraws_succ, or_iff_right]
          rintro ⟨rfl, hne, hid⟩
          exact hfree ⟨hne, by simpa [DashMap.containsKey] using hid⟩
        rw [if_neg hfree, ih, hsame]
    · rw [if_neg hlen]
      show strs.length = _
      omega

/-! ## What a request gets -/

/-- A request for `clients` slots is granted. -/
def Grants (t : TunnelV2 C R) (draws : Nat → Int16) (clients : Nat) : Prop :=
  t.maintenanceMode = false ∧ 2 ≤ clients ∧ clients ≤ 8 ∧ clients ≤ (status t).free ∧
    clients ≤ (freshDraws maxAttempts draws t.mappings).card

theorem handleRequest_ok_iff (t : TunnelV2 C R) (now : Nat) (draws : Nat → Int16)
    (query : Option (List Char)) :
    (handleRequest core t now draws query).1.status = .ok ↔
      Grants t draws (parseClients query) := by
  have hcount := length_allocateIds core now (parseClients query) maxAttempts draws t.mappings []
  rw [List.length_nil, Nat.zero_add, Nat.sub_zero] at hcount
  unfold handleRequest Grants status
  cases hmode : t.maintenanceMode with
  | true => simp
  | false =>
    simp only [Bool.false_eq_true, if_false, true_and]
    split
    · simp only [reduceCtorEq, false_iff]
      omega
    split
    · simp only [reduceCtorEq, false_iff]
      omega
    rw [hcount]
    split
    · simp only [reduceCtorEq, false_iff]
      omega
    · simp only [true_iff]
      omega

/-- The mappings grow by the ids of the answer, which were not there. -/
theorem HandsOut.len_eq {t t' : TunnelV2 C R} {now clients : Nat} {body : List Char}
    {ids : List Int16} (h : HandsOut core t now clients body t' ids) :
    t'.mappings.len = t.mappings.len + clients := by
  have hkeys : t'.mappings.keySet = t.mappings.keySet ∪ ids.toFinset := by
    ext id
    rw [Finset.mem_union, DashMap.mem_keySet, DashMap.mem_keySet, List.mem_toFinset,
      DashMap.mem_iff_get, h.added, DashMap.mem_iff_get]
    by_cases hid : id ∈ ids
    · simp [hid]
    · simp [hid]
  have hdisjoint : Disjoint t.mappings.keySet ids.toFinset := by
    rw [Finset.disjoint_right]
    intro id hid hmem
    exact (h.fresh id (List.mem_toFinset.mp hid)).2 (DashMap.mem_keySet.mp hmem)
  rw [← DashMap.card_keySet, hkeys, Finset.card_union_of_disjoint hdisjoint,
    DashMap.card_keySet, List.toFinset_card_of_nodup h.nodup, h.length]

theorem status_handleRequest (t : TunnelV2 C R) (now : Nat) (draws : Nat → Int16)
    (query : Option (List Char)) :
    let out := handleRequest core t now draws query
    let clients := if out.1.status = .ok then parseClients query else 0
    status out.2 = ⟨(status t).free - clients, (status t).inUse + clients, (status t).dropped⟩ := by
  intro out clients
  have hmax : out.2.maxClients = t.maxClients := maxClients_handleRequest core t now draws query
  have hdropped := (count_handleRequest core t now draws query).2
  have hlen : out.2.mappings.len = t.mappings.len + clients := by
    by_cases hok : out.1.status = .ok
    · obtain ⟨ids, hids⟩ := handleRequest_ok core t now draws query hok
      simp only [clients, if_pos hok]
      exact hids.len_eq
    · have hsame : ∀ id, id ∈ out.2.mappings ↔ id ∈ t.mappings := by
        intro id
        rw [DashMap.mem_iff_get, DashMap.mem_iff_get,
          handleRequest_not_ok core t now draws query hok]
      simp only [clients, if_neg hok, Nat.add_zero]
      exact Nat.le_antisymm (DashMap.len_le_of_subset fun id => (hsame id).mp)
        (DashMap.len_le_of_subset fun id => (hsame id).mpr)
  simp only [status, hmax, hlen, out, hdropped]
  rw [Nat.sub_add_eq]

/-- The tunnel as the handlers of an HTTP request see it: counted, and charged to the limiter. -/
def counted (t : TunnelV2 C R) (now : Nat) (addr : SocketAddr) : TunnelV2 C R :=
  { t with
    metrics := t.metrics.fetchAdd .v2HttpRequests 1
    requestLimiter := (rater.tryAcquire t.requestLimiter addr.ip now).2 }

section Routing

variable {t : TunnelV2 C R} {now : Nat} {addr : SocketAddr}
variable (hgrant : (rater.tryAcquire t.requestLimiter addr.ip now).1 = true)
include hgrant

theorem handleHttpRequest_status (draws : Nat → Int16) (query : Option (List Char)) :
    (handleHttpRequest core rater t now draws ⟨true, "/status".toList, query⟩ addr).1 =
      handleStatus (counted rater t now addr) := by
  simp [handleHttpRequest, RateLimiter.checkAndIncrement, hgrant, counted]

theorem handleHttpRequest_request (draws : Nat → Int16) (query : Option (List Char)) :
    handleHttpRequest core rater t now draws ⟨true, "/request".toList, query⟩ addr =
      handleRequest core (counted rater t now addr) now draws query := by
  simp [handleHttpRequest, RateLimiter.checkAndIncrement, hgrant, counted]

end Routing

/-- **`/status` and `/request`.** After any run, `/status` reads back as the slots that are free,
those in use, which make up `max_clients`, and the connections dropped. A request for slots that
the limiter lets through is granted exactly if the tunnel is not in maintenance, the number is
from 2 to 8 and at most what `/status` calls free, and the draws have that many free ids; then
`/status` has moved by that number, and otherwise not at all. -/
theorem status_predicts_requests (config : ServerConfig) (events : List Event) (now : Nat)
    (draws : Nat → Int16) (query : Option (List Char)) (addr : SocketAddr) :
    let t : TunnelV2 C R := (machine core rater).run (new rater config) events
    (rater.tryAcquire t.requestLimiter addr.ip now).1 = true →
    let shown := handleHttpRequest core rater t now draws ⟨true, "/status".toList, none⟩ addr
    let out := handleHttpRequest core rater t now draws ⟨true, "/request".toList, query⟩ addr
    let clients := parseClients query
    Status.read shown.1.body = some (status t) ∧
    (status t).free + (status t).inUse = config.maxClients ∧
    (out.1.status = .ok ↔ Grants t draws clients) ∧
    status out.2 = if out.1.status = .ok then
      ⟨(status t).free - clients, (status t).inUse + clients, (status t).dropped⟩ else status t := by
  intro t hgrant shown out clients
  have hroom : Occupancy config.maxClients t :=
    (machine core rater).invariant (P := Occupancy config.maxClients) (occupancy_new rater config)
      (fun _ e hroom => hroom.step core rater e) events
  have hshown : shown.1 = handleStatus (counted rater t now addr) :=
    handleHttpRequest_status core rater hgrant draws none
  have hout : out = handleRequest core (counted rater t now addr) now draws query :=
    handleHttpRequest_request core rater hgrant draws query
  have hstatus := status_handleRequest core (counted rater t now addr) now draws query
  refine ⟨?_, ?_, ?_, ?_⟩
  · exact (congrArg (fun r : Response => Status.read r.body) hshown).trans (read_handleStatus _)
  · have hlen := hroom.len
    simp only [status, hroom.maxClients]
    omega
  · rw [hout, handleRequest_ok_iff]
    rfl
  · rw [hout, hstatus]
    split <;> rfl

/-- A lobby of three leaves one of four slots free, and a lobby of two gets none. -/
theorem status_predicts_requests_three_slots :
    let core := RelayCore.reference timeoutSeconds
    let M := machine core Rater.granting
    let config : ServerConfig := ⟨50001, 50000, 4, "", 8, 4⟩
    let draws : Nat → Int16 := fun n => [7, 7, 0, -5, 9].getD n 1
    let alice : SocketAddr := .v4 8 8 8 8 1234
    let request : Request := ⟨true, "/request".toList, some "clients=3".toList⟩
    let t := M.run (new Rater.granting config) [.http ⟨1000, 1, true⟩ draws request alice]
    let out := handleHttpRequest core Rater.granting t 1000 draws
      ⟨true, "/request".toList, some "clients=2".toList⟩ alice
    status t = ⟨1, 3, 0⟩ ∧ out.1.status ≠ .ok ∧ status out.2 = status t := by
  intro core M config draws alice request t out
  have hall := status_predicts_requests core Rater.granting config
    [.http ⟨1000, 1, true⟩ draws request alice] 1000 draws (some "clients=2".toList) alice rfl
  have hrefused : out.1.status ≠ .ok := by decide +kernel
  refine ⟨by decide +kernel, hrefused, ?_⟩
  exact hall.2.2.2.trans (if_neg hrefused)

end CncnetServer.TunnelV2
