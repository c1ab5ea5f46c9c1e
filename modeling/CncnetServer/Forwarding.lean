import CncnetServer.V3.Interleaving
import CncnetServer.V2.Interleaving
import Mathlib.Data.Fintype.Basic

/-!
What both tunnels forward when any number of their threads run at once.

* `forwarding_authorised`: in every interleaving, a datagram is the packet that its worker is
  handling, and goes to an endpoint from which a packet with the receiver's id has come;
* `forwarding_in_any_order`: for clients that are there and not silent, the interleaving of
  the workers does not matter.
-/

namespace CncnetServer

open Threads Runs History Traffic

/-- **No datagram without its packet.** -/
theorem forwarding_authorised {C A R : Type} {core : RelayCore C A} (hcore : core.FixedEndpoint)
    (rater : Rater R) {ι : Type} [DecidableEq ι] :
    (∀ p : Pool ι (TunnelV3.Shared C A R) TunnelV3.Thread, TunnelV3.Started p → ∀ as,
      Always Authorised ((TunnelV3.traffic core rater).machine.trace p as)) ∧
    ∀ p : Pool ι (TunnelV2.Shared C R) TunnelV2.Thread, TunnelV2.Started p → ∀ as,
      Always Authorised ((TunnelV2.traffic core rater).machine.trace p as) :=
  ⟨fun _ hp as => TunnelV3.traffic_authorised rater hcore hp as,
    fun _ hp as => TunnelV2.traffic_authorised rater hcore hp as⟩

theorem forwarding_authorised_two_workers :
    let core := RelayCore.reference TunnelV3.timeoutSeconds
    let alice : SocketAddr := .v4 8 8 8 8 1234
    let bob : SocketAddr := .v4 9 9 9 9 1234
    let M := (TunnelV3.traffic core Rater.granting).machine
    let p := TunnelV3.referencePool Bool 200 1000
    let as := .work false (.receive 1 2 [] alice) :: List.replicate 9 (.work false (.go true)) ++
      .work true (.receive 2 1 [7] bob) :: List.replicate 10 (.work true (.go true))
    Always Authorised (M.trace p as) ∧ (true, .sent ⟨[7], alice⟩) ∈ M.trace p as :=
  ⟨(forwarding_authorised (RelayCore.reference_fixedEndpoint _) Rater.granting).1 _
    (TunnelV3.referencePool_started Bool 200 1000) _, by decide +kernel⟩

/-- **The interleaving of established clients does not matter.** -/
theorem forwarding_in_any_order {C A R : Type} {core : RelayCore C A} (hcore : core.FixedEndpoint)
    (rater : Rater R) {ι : Type} [DecidableEq ι] [Fintype ι] :
    (∀ start : Pool ι (TunnelV3.Shared C A R) TunnelV3.Thread, TunnelV3.Started start →
      ∀ past as,
      let M := (TunnelV3.traffic core rater).machine
      let p := M.run start past
      let table := core.endpointAt p.shared.mappings p.shared.heap
      let p' := M.run p as
      (∀ i, p.thread i = .idle) →
      M.Along (System.OnWork (TunnelV3.Established core table)) p as →
      (∀ i, p'.thread i = .idle) →
      core.endpointAt p'.shared.mappings p'.shared.heap = table ∧
      OrderFree table (M.trace p as) (TunnelV3.oneByOne core rater)
        (TunnelV3.EstablishedTurn core) p.shared.unshared) ∧
    ∀ start : Pool ι (TunnelV2.Shared C R) TunnelV2.Thread, TunnelV2.Started start →
      ∀ past as,
      let M := (TunnelV2.traffic core rater).machine
      let p := M.run start past
      let table := core.endpointAt p.shared.mappings p.shared.heap
      let p' := M.run p as
      (∀ i, p.thread i = .idle) →
      M.Along (System.OnWork (TunnelV2.Established core table)) p as →
      (∀ i, p'.thread i = .idle) →
      core.endpointAt p'.shared.mappings p'.shared.heap = table ∧
      OrderFree table (M.trace p as) (TunnelV2.oneByOne core)
        (TunnelV2.EstablishedTurn core) p.shared.unshared :=
  ⟨fun _ hstart past as => TunnelV3.established_run rater hcore hstart past as,
    fun _ hstart past as => TunnelV2.established_run rater hcore hstart past as⟩

deriving instance DecidableEq for TunnelV3.Call, TunnelV3.Thread, TunnelV2.Call, TunnelV2.Thread

/-- In each tunnel, two clients are bound, and then the second of their packets overtakes the
first; in the V2 tunnel, slots are handed out meanwhile. -/
theorem forwarding_in_any_order_overtaken :
    let core := RelayCore.reference 30
    let alice : SocketAddr := .v4 8 8 8 8 1234
    let bob : SocketAddr := .v4 9 9 9 9 1234
    let env : Env := ⟨1000, 0, true⟩
    (let M := (TunnelV3.traffic core Rater.granting).machine
      let past := .work 0 (.receive 1 2 [] alice) :: List.replicate 9 (.work 0 (.go true)) ++
        .work 0 (.receive 2 1 [] bob) :: List.replicate 12 (.work 0 (.go true))
      let p := M.run (TunnelV3.referencePool (Fin 2) 200 1000) past
      let as := [.work 0 (.receive 1 2 [7] alice), .work 1 (.receive 2 1 [8] bob)] ++
        List.replicate 7 (.work 1 (.go true)) ++ List.replicate 7 (.work 0 (.go true))
      datagrams (M.trace p as) = [⟨[8], alice⟩, ⟨[7], bob⟩] ∧
        (datagrams (M.trace p as)).Perm ((TunnelV3.oneByOne core Rater.granting).trace
          p.shared.unshared [⟨env, 1, 2, [7], alice, .new⟩, ⟨env, 2, 1, [8], bob, .new⟩])) ∧
    (let M := (TunnelV2.traffic core Rater.granting).machine
      let request : Fin 3 → Int16 → Int16 → List (Action (Fin 3) TunnelV2.Input) := fun i x y =>
        .work i (.request (some "clients=2".toList)) ::
          [0, 0, x, x, x, y, y, y, 0, 0].map fun k => .work i (.draw k)
      let past := request 0 1 2 ++
        .work 0 (.receive 1 2 [] alice) :: List.replicate 5 (.work 0 (.go true)) ++
        .work 0 (.receive 2 1 [] bob) :: List.replicate 7 (.work 0 (.go true))
      let p := M.run (TunnelV2.referencePool (Fin 3) 200 1000) past
      let as := [.work 0 (.receive 1 2 [7] alice), .work 1 (.receive 2 1 [8] bob)] ++
        request 2 3 4 ++ List.replicate 6 (.work 1 (.go true)) ++
        List.replicate 6 (.work 0 (.go true))
      datagrams (M.trace p as) = [⟨[8], alice⟩, ⟨[7], bob⟩] ∧
        (datagrams (M.trace p as)).Perm ((TunnelV2.oneByOne core).trace
          p.shared.unshared [⟨env, 1, 2, [7], alice, .new⟩, ⟨env, 2, 1, [8], bob, .new⟩])) := by
  have hcore := RelayCore.reference_fixedEndpoint 30
  refine ⟨⟨by decide +kernel, ?_⟩, by decide +kernel, ?_⟩
  · exact ((forwarding_in_any_order hcore Rater.granting).1 _
      (TunnelV3.referencePool_started (Fin 2) 200 1000) _ _ (by decide +kernel)
      (by decide +kernel) (by decide +kernel)).2.inTurns _ (by decide +kernel) (by decide +kernel)
  · exact ((forwarding_in_any_order hcore Rater.granting).2 _
      (TunnelV2.referencePool_started (Fin 3) 200 1000) _ _ (by decide +kernel)
      (by decide +kernel) (by decide +kernel)).2.inTurns _ (by decide +kernel) (by decide +kernel)

end CncnetServer
