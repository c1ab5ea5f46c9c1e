import CncnetServer.V3.Run

/-!
The commands of the V3 tunnel, seen by the administrator.

`execute_command` stores its tick before it compares the password, so that every
attempt counts for the rate limit. A rejected command therefore changes nothing but
`last_command_tick`, and through it holds up the commands of the next minute.

* `rejected_changes_tick`: what a rejected command changes;
* `rejected_commands_removable`: the rejected commands can be deleted from a run without
  a trace if no authenticated command follows an attempt within a minute;
* `rejected_command_holds_up`: one that does.
-/

namespace CncnetServer.TunnelV3

open Runs

variable {C A R : Type} (core : RelayCore C A) (rater : Rater R)

/-! ## Commands -/

/-- The packet of the event, if `on_receive` takes it for a command. -/
def commandOf : Event → Option Packet
  | .receive _ packet _ _ =>
    (parsePacketHeader packet).bind fun ids =>
      if isCommand ids.1 ids.2 packet then some packet else none
  | _ => none

/-- The 20 bytes that are compared with the SHA-1 of the password. -/
def digest (packet : Packet) : List UInt8 := (packet.take 29).drop 9

/-- A command with the right digest. -/
def authentic (sha1 : Option (List UInt8)) (e : Event) : Bool :=
  (commandOf e).any fun packet => decide (sha1 = some (digest packet))

/-- A command with a wrong digest. -/
def rejected (sha1 : Option (List UInt8)) (e : Event) : Bool :=
  (commandOf e).any fun packet => decide (sha1 ≠ some (digest packet))

/-- The rate limit lets a command pass. -/
def passes (t : TunnelV3 C A R) (e : Event) : Bool :=
  decide (commandRateLimitSecs ≤ e.env.elapsedSecs - t.lastCommandTick)

/-- An authenticated command that takes effect. -/
def takesEffect (t : TunnelV3 C A R) (e : Event) : Bool :=
  authentic t.maintenancePasswordSha1 e && passes t e

/-- The event switches the maintenance mode. -/
def switches (t : TunnelV3 C A R) : Event → Bool
  | .toggleMaintenance _ => true
  | e => takesEffect t e && (commandOf e).any fun packet => packet.getD 8 0 == 0

/-- What an event does to the state that commands depend on. -/
structure AdminStep (t : TunnelV3 C A R) (e : Event) (t' : TunnelV3 C A R) : Prop where
  password : t'.maintenancePasswordSha1 = t.maintenancePasswordSha1
  tick : t'.lastCommandTick =
    if (commandOf e).isSome ∧ t.maintenancePasswordSha1.isSome ∧ passes t e = true
    then e.env.elapsedSecs else t.lastCommandTick
  mode : t'.maintenanceMode = (t.maintenanceMode != switches t e)

theorem handleDataForward_admin (t : TunnelV3 C A R) (env : Env) (s r : UInt32) (packet : Packet)
    (addr : SocketAddr) (batch : LocalMetricsBatch) :
    let t' := (handleDataForward core rater t env s r packet addr batch).1
    t'.maintenancePasswordSha1 = t.maintenancePasswordSha1 ∧
      t'.lastCommandTick = t.lastCommandTick ∧ t'.maintenanceMode = t.maintenanceMode := by
  have hrelay : ∀ u : TunnelV3 C A R,
      let u' := (relay core u env r packet addr batch).1
      u'.maintenancePasswordSha1 = u.maintenancePasswordSha1 ∧
        u'.lastCommandTick = u.lastCommandTick ∧ u'.maintenanceMode = u.maintenanceMode := by
    intro u
    unfold relay
    split
    · split <;> exact ⟨rfl, rfl, rfl⟩
    · exact ⟨rfl, rfl, rfl⟩
  have hstep := senderValid_step core rater t env s packet addr
  unfold handleDataForward
  dsimp only
  generalize senderValid core rater t env s packet addr = out at hstep ⊢
  split
  · cases hstep <;> exact ⟨rfl, rfl, rfl⟩
  · obtain ⟨hpassword, htick, hmode⟩ := hrelay out.2
    rw [hpassword, htick, hmode]
    cases hstep <;> exact ⟨rfl, rfl, rfl⟩

theorem commandOf_receive {env : Env} {packet p : Packet} {addr : SocketAddr}
    {batch : LocalMetricsBatch} :
    commandOf (.receive env packet addr batch) = some p ↔
      p = packet ∧ ∃ s r, parsePacketHeader packet = some (s, r) ∧ isCommand s r packet := by
  unfold commandOf
  rw [Option.bind_eq_some_iff]
  constructor
  · rintro ⟨⟨s, r⟩, hheader, hp⟩
    split at hp
    · rename_i hcmd
      cases hp
      exact ⟨rfl, s, r, hheader, hcmd⟩
    · cases hp
  · rintro ⟨rfl, s, r, hheader, hcmd⟩
    exact ⟨(s, r), hheader, if_pos hcmd⟩

/-- A call that is no command and no switch leaves the state of the commands alone. -/
theorem AdminStep.of_eq {t t' : TunnelV3 C A R} {e : Event} (hcmd : commandOf e = none)
    (hswitch : ∀ env, e ≠ .toggleMaintenance env)
    (hpassword : t'.maintenancePasswordSha1 = t.maintenancePasswordSha1)
    (htick : t'.lastCommandTick = t.lastCommandTick)
    (hmode : t'.maintenanceMode = t.maintenanceMode) : AdminStep t e t' where
  password := hpassword
  tick := by simp [hcmd, htick]
  mode := by
    have hno : switches t e = false := by
      unfold switches
      split
      · rename_i env
        exact absurd rfl (hswitch env)
      · simp [takesEffect, authentic, hcmd]
    rw [hno, hmode, Bool.bne_false]

theorem executeCommand_admin (t : TunnelV3 C A R) {env : Env} {packet : Packet}
    {addr : SocketAddr} {batch : LocalMetricsBatch}
    (hcmd : commandOf (.receive env packet addr batch) = some packet) :
    AdminStep t (.receive env packet addr batch) (executeCommand core rater t env packet) := by
  have hpasses : passes t (.receive env packet addr batch) =
      !decide (env.elapsedSecs - t.lastCommandTick < commandRateLimitSecs) := by
    rw [← decide_not]
    exact decide_eq_decide.mpr Nat.not_lt.symm
  cases hsha : t.maintenancePasswordSha1 with
  | none =>
    have hsame : executeCommand core rater t env packet = t := by
      simp [executeCommand, hsha]
    rw [hsame]
    exact ⟨rfl, by simp [hsha], by simp [switches, takesEffect, authentic, hcmd, hsha]⟩
  | some sha1 =>
    by_cases hlimit : env.elapsedSecs - t.lastCommandTick < commandRateLimitSecs
    · have hsame : executeCommand core rater t env packet = t := by
        simp [executeCommand, hlimit]
      rw [hsame]
      exact ⟨rfl, by simp [hpasses, hlimit], by simp [switches, takesEffect, hpasses, hlimit]⟩
    · have hpass : passes t (.receive env packet addr batch) = true := by simp [hpasses, hlimit]
      have hswitch : switches t (.receive env packet addr batch) =
          (decide (some sha1 = some (digest packet)) && packet.getD 8 0 == 0) := by
        simp only [switches, takesEffect, authentic, hcmd, hsha, Option.any_some, hpass,
          Bool.and_true]
      have htick : (if (commandOf (.receive env packet addr batch)).isSome ∧
          t.maintenancePasswordSha1.isSome ∧ passes t (.receive env packet addr batch) = true
          then env.elapsedSecs else t.lastCommandTick) = env.elapsedSecs := by
        rw [hcmd, hsha, hpass]
        rfl
      unfold executeCommand
      simp only [hlimit, hsha, Option.isNone_some, Bool.false_eq_true, or_self, if_false]
      by_cases hpw : some sha1 = some (digest packet)
      · have hpw' : some sha1 = some ((packet.take 29).drop 9) := hpw
        rw [decide_eq_true hpw, Bool.true_and] at hswitch
        rw [if_pos hpw']
        split
        · rename_i h0
          rw [h0] at hswitch
          exact ⟨hsha.symm, htick.symm, by rw [hswitch]; simp⟩
        · rename_i h1
          rw [h1] at hswitch
          exact ⟨hsha.symm, htick.symm, by rw [hswitch]; simp [cleanupExpiredMappings]⟩
        · rename_i h0 h1
          have hne : (packet.getD 8 0 == 0) = false := beq_eq_false_iff_ne.mpr h0
          exact ⟨hsha.symm, htick.symm, by rw [hswitch, hne]; simp⟩
      · have hpw' : ¬ some sha1 = some ((packet.take 29).drop 9) := hpw
        rw [decide_eq_false hpw, Bool.false_and] at hswitch
        rw [if_neg hpw']
        exact ⟨hsha.symm, htick.symm, by rw [hswitch]; simp⟩

theorem step_command {t : TunnelV3 C A R} {env : Env} {packet p : Packet} {addr : SocketAddr}
    {batch : LocalMetricsBatch} (hc : commandOf (.receive env packet addr batch) = some p) :
    (machine core rater).step t (.receive env packet addr batch) =
      executeCommand core rater t env packet := by
  obtain ⟨_, s, r, hheader, hcmd⟩ := commandOf_receive.mp hc
  simp [machine, onReceive, hheader, hcmd]

/-- **What a step does to the state of the commands.** -/
theorem step_admin (t : TunnelV3 C A R) (e : Event) :
    AdminStep t e ((machine core rater).step t e) := by
  cases e with
  | cleanup env => exact .of_eq rfl (by simp) rfl rfl rfl
  | toggleMaintenance env => exact ⟨rfl, by simp [commandOf, machine], by simp [switches, machine]⟩
  | receive env packet addr batch =>
    have hstep := onReceive_step core rater t env packet addr batch
    cases hc : commandOf (.receive env packet addr batch) with
    | some p =>
      obtain ⟨rfl, _⟩ := commandOf_receive.mp hc
      rw [step_command core rater hc]
      exact executeCommand_admin core rater t hc
    | none =>
      simp only [machine]
      generalize onReceive core rater t env packet addr batch = out at hstep
      cases hstep with
      | short _ => exact .of_eq hc (by simp) rfl rfl rfl
      | command s r hheader hcmd =>
        have hsome : commandOf (.receive env packet addr batch) = some packet :=
          commandOf_receive.mpr ⟨rfl, s, r, hheader, hcmd⟩
        rw [hc] at hsome
        cases hsome
      | dropped _ => exact .of_eq hc (by simp) rfl rfl rfl
      | pingLimited _ => exact .of_eq hc (by simp) rfl rfl rfl
      | ping _ _ => exact .of_eq hc (by simp) rfl rfl rfl
      | forward s r _ =>
        obtain ⟨hpassword, htick, hmode⟩ := handleDataForward_admin core rater t env s r packet
          addr (batch.recordV3Rx (UInt64.ofNat packet.length))
        exact .of_eq hc (by simp) hpassword htick hmode

theorem rejected_iff {sha1 : Option (List UInt8)} {e : Event} :
    rejected sha1 e = true ↔ ∃ p, commandOf e = some p ∧ sha1 ≠ some (digest p) := by
  unfold rejected
  rw [Option.any_eq_true]
  simp only [decide_eq_true_eq]

/-- **A rejected command changes nothing but the tick.** -/
theorem rejected_changes_tick {t : TunnelV3 C A R} {e : Event}
    (h : rejected t.maintenancePasswordSha1 e = true) :
    (machine core rater).step t e =
      { t with lastCommandTick := ((machine core rater).step t e).lastCommandTick } := by
  obtain ⟨p, hc, hpw⟩ := rejected_iff.mp h
  cases e with
  | cleanup _ => cases hc
  | toggleMaintenance _ => cases hc
  | receive env packet addr batch =>
    obtain ⟨rfl, _⟩ := commandOf_receive.mp hc
    rw [step_command core rater hc]
    have hstep := executeCommand_step core rater t env p
    generalize executeCommand core rater t env p = t' at hstep
    cases hstep with
    | ignored => rfl
    | noEffect => rfl
    | toggled hpw' => exact absurd hpw' hpw
    | cleaned hpw' => exact absurd hpw' hpw

/-! ## A run without the rejected commands -/

section TwoRuns

variable (t₀ : TunnelV3 C A R)

/-- The event is not a rejected command. -/
def notRejected (e : Event) : Bool := !rejected t₀.maintenancePasswordSha1 e

/-- An attempt: a rejected command that the rate limit lets pass. -/
def Attempt (before : List Event) (e : Event) : Prop :=
  rejected t₀.maintenancePasswordSha1 e = true ∧
    passes ((machine core rater).run t₀ before) e = true

/-- No authenticated command follows an attempt within a minute. -/
def Unhindered (events : List Event) : Prop :=
  ∀ before b between a after, events = before ++ b :: between ++ a :: after →
    Attempt core rater t₀ before b → authentic t₀.maintenancePasswordSha1 a = true →
    b.env.elapsedSecs + commandRateLimitSecs ≤ a.env.elapsedSecs

/-- The state of the commands after a run and after the run without its rejected commands:
the ticks differ only if that of the run is the tick of an attempt. -/
structure Follows (before : List Event) (s t : TunnelV3 C A R) : Prop where
  mode : t.maintenanceMode = s.maintenanceMode
  le : t.lastCommandTick ≤ s.lastCommandTick
  tick : t.lastCommandTick = s.lastCommandTick ∨ ∃ pre b post, before = pre ++ b :: post ∧
    Attempt core rater t₀ pre b ∧ s.lastCommandTick = b.env.elapsedSecs

variable {core rater t₀}

theorem password_run (as : List Event) :
    ((machine core rater).run t₀ as).maintenancePasswordSha1 = t₀.maintenancePasswordSha1 :=
  (machine core rater).invariant
    (P := fun t => t.maintenancePasswordSha1 = t₀.maintenancePasswordSha1) rfl
    (fun t e h => (step_admin core rater t e).password.trans h) as

/-- Both runs let the same authenticated commands pass. -/
theorem Follows.passes_iff {before after : List Event} {a : Event} {s t : TunnelV3 C A R}
    (h : Follows core rater t₀ before s t)
    (hclear : Unhindered core rater t₀ (before ++ a :: after))
    (ha : authentic t₀.maintenancePasswordSha1 a = true) : passes t a = passes s a := by
  rcases h.tick with heq | ⟨pre, b, post, rfl, hattempt, htick⟩
  · unfold passes
    rw [heq]
  · have hlate := hclear pre b post a after rfl hattempt ha
    have hle := h.le
    unfold passes
    rw [decide_eq_true (show commandRateLimitSecs ≤ a.env.elapsedSecs - s.lastCommandTick by omega),
      decide_eq_true (show commandRateLimitSecs ≤ a.env.elapsedSecs - t.lastCommandTick by omega)]

theorem Follows.extend {before : List Event} {e : Event} {s t s' t' : TunnelV3 C A R}
    (h : Follows core rater t₀ before s t) (hmode : t'.maintenanceMode = s'.maintenanceMode)
    (hs : s'.lastCommandTick = s.lastCommandTick) (ht : t'.lastCommandTick = t.lastCommandTick) :
    Follows core rater t₀ (before ++ [e]) s' t' where
  mode := hmode
  le := by rw [hs, ht]; exact h.le
  tick := by
    rw [hs, ht]
    rcases h.tick with heq | ⟨pre, b, post, rfl, hattempt, htick⟩
    · exact Or.inl heq
    · exact Or.inr ⟨pre, b, post ++ [e], by simp, hattempt, htick⟩

theorem switches_congr {s t : TunnelV3 C A R} {e : Event} (h : takesEffect t e = takesEffect s e) :
    switches t e = switches s e := by
  cases e with
  | toggleMaintenance _ => rfl
  | receive _ _ _ _ => simp only [switches, h]
  | cleanup _ => simp only [switches, h]

theorem Follows.takesEffect_eq {before after : List Event} {a : Event} {s t : TunnelV3 C A R}
    (h : Follows core rater t₀ before s t)
    (hs : s.maintenancePasswordSha1 = t₀.maintenancePasswordSha1)
    (ht : t.maintenancePasswordSha1 = t₀.maintenancePasswordSha1)
    (hclear : Unhindered core rater t₀ (before ++ a :: after)) :
    takesEffect t a = takesEffect s a := by
  unfold takesEffect
  rw [hs, ht]
  cases ha : authentic t₀.maintenancePasswordSha1 a with
  | false => rfl
  | true => rw [h.passes_iff hclear ha]

/-- One step of both runs, or of the full run alone for a rejected command. -/
theorem Follows.step {before after : List Event} {e : Event} {t : TunnelV3 C A R}
    (h : Follows core rater t₀ before ((machine core rater).run t₀ before) t)
    (ht : t.maintenancePasswordSha1 = t₀.maintenancePasswordSha1)
    (hclear : Unhindered core rater t₀ (before ++ e :: after)) :
    Follows core rater t₀ (before ++ [e])
      ((machine core rater).step ((machine core rater).run t₀ before) e)
      (if notRejected t₀ e then (machine core rater).step t e else t) := by
  have hs : ((machine core rater).run t₀ before).maintenancePasswordSha1 =
      t₀.maintenancePasswordSha1 := password_run before
  have hattempt : rejected t₀.maintenancePasswordSha1 e = true →
      passes ((machine core rater).run t₀ before) e = true → Attempt core rater t₀ before e :=
    fun hrejected hpasses => ⟨hrejected, hpasses⟩
  have hsame := h.takesEffect_eq hs ht hclear
  have hpassesEq := h.passes_iff hclear
  generalize (machine core rater).run t₀ before = s at h hs hattempt hsame hpassesEq ⊢
  have hstepS := step_admin core rater s e
  have hstepT := step_admin core rater t e
  have hmode : ((machine core rater).step t e).maintenanceMode =
      ((machine core rater).step s e).maintenanceMode := by
    rw [hstepT.mode, hstepS.mode, h.mode, switches_congr hsame]
  have htickS := hstepS.tick
  have htickT := hstepT.tick
  rw [hs] at htickS
  rw [ht] at htickT
  cases hrejected : rejected t₀.maintenancePasswordSha1 e with
  | true =>
    have hsmode : t.maintenanceMode = ((machine core rater).step s e).maintenanceMode := by
      rw [rejected_changes_tick core rater (by rw [hs]; exact hrejected)]
      exact h.mode
    simp only [notRejected, hrejected, Bool.not_true, Bool.false_eq_true, if_false]
    by_cases hpass : (commandOf e).isSome ∧ t₀.maintenancePasswordSha1.isSome ∧ passes s e = true
    · rw [if_pos hpass] at htickS
      have hlate : commandRateLimitSecs ≤ e.env.elapsedSecs - s.lastCommandTick :=
        of_decide_eq_true hpass.2.2
      have hle := h.le
      have hminute : commandRateLimitSecs = 60 := rfl
      refine ⟨hsmode, by omega, Or.inr ⟨before, e, [], rfl, ?_, htickS⟩⟩
      exact hattempt hrejected hpass.2.2
    · rw [if_neg hpass] at htickS
      exact h.extend hsmode htickS rfl
  | false =>
    simp only [notRejected, hrejected, Bool.not_false, if_true]
    cases hc : commandOf e with
    | none =>
      simp only [hc, Option.isSome_none, Bool.false_eq_true, false_and, if_false] at htickS htickT
      exact h.extend hmode htickS htickT
    | some p =>
      have hauthentic : authentic t₀.maintenancePasswordSha1 e = true := by
        unfold authentic
        unfold rejected at hrejected
        rw [hc, Option.any_some, decide_eq_false_iff_not, not_not] at hrejected
        rw [hc, Option.any_some, decide_eq_true hrejected]
      rw [hpassesEq hauthentic] at htickT
      by_cases hpass : (commandOf e).isSome ∧ t₀.maintenancePasswordSha1.isSome ∧ passes s e = true
      · rw [if_pos hpass] at htickS htickT
        exact ⟨hmode, by rw [htickS, htickT], Or.inl (by rw [htickS, htickT])⟩
      · rw [if_neg hpass] at htickS htickT
        exact h.extend hmode htickS htickT

/-- **Two runs.** The run without the rejected commands follows the full run. -/
theorem follows_run {events : List Event} (hclear : Unhindered core rater t₀ events)
    (before after : List Event) (hsplit : events = before ++ after) :
    Follows core rater t₀ before ((machine core rater).run t₀ before)
      ((machine core rater).run t₀ (before.filter (notRejected t₀))) := by
  induction before using List.reverseRecOn generalizing after with
  | nil => exact ⟨rfl, Nat.le_refl _, Or.inl rfl⟩
  | append_singleton before e ih =>
    have hsplit' : events = before ++ e :: after := by rw [hsplit, List.append_assoc]; rfl
    have hprev := ih (e :: after) hsplit'
    have hstep := hprev.step (password_run _) (hsplit' ▸ hclear)
    rw [Machine.run_snoc, List.filter_append]
    cases hkept : notRejected t₀ e with
    | true =>
      rw [hkept, if_pos rfl] at hstep
      rw [List.filter_cons_of_pos hkept, List.filter_nil, Machine.run_snoc]
      exact hstep
    | false =>
      rw [hkept, if_neg Bool.false_ne_true] at hstep
      rw [List.filter_cons_of_neg (by simp [hkept]), List.filter_nil, List.append_nil]
      exact hstep

end TwoRuns

/-- **Rejected commands.** One of them changes nothing but `last_command_tick`. And if no
authenticated command follows an attempt within a minute, deleting them all from a run
changes at no other step the maintenance mode or whether an authenticated command takes
effect. -/
theorem rejected_commands_removable :
    (∀ (t : TunnelV3 C A R) (e : Event), rejected t.maintenancePasswordSha1 e = true →
      (machine core rater).step t e =
        { t with lastCommandTick := ((machine core rater).step t e).lastCommandTick }) ∧
    (∀ (t₀ : TunnelV3 C A R) (events : List Event), Unhindered core rater t₀ events →
      ∀ before e after, events = before ++ e :: after → notRejected t₀ e = true →
        let s := (machine core rater).run t₀ before
        let t := (machine core rater).run t₀ (before.filter (notRejected t₀))
        s.maintenanceMode = t.maintenanceMode ∧
          ((machine core rater).step s e).maintenanceMode =
            ((machine core rater).step t e).maintenanceMode ∧
          takesEffect s e = takesEffect t e) := by
  refine ⟨fun t e h => rejected_changes_tick core rater h, ?_⟩
  rintro t₀ events hclear before e after rfl hkept s t
  have hfollows := follows_run hclear before (e :: after) rfl
  have hpassword : ∀ as, ((machine core rater).run t₀ as).maintenancePasswordSha1 =
      t₀.maintenancePasswordSha1 := password_run
  have hstep := hfollows.step (hpassword _) hclear
  rw [if_pos hkept] at hstep
  exact ⟨hfollows.mode.symm, hstep.mode.symm,
    (hfollows.takesEffect_eq (hpassword _) (hpassword _) hclear).symm⟩

/-- A toggle command at a time, with a digest of twenty equal bytes. -/
def toggleAt (elapsedSecs : Nat) (byte : UInt8) : Event :=
  .receive ⟨0, elapsedSecs, true⟩ ([0, 0, 0, 0, 255, 255, 255, 255, 0] ++ List.replicate 20 byte)
    (.v4 8 8 8 8 1234) .new

/-- A tunnel whose password has the digest of twenty sevens. -/
def guarded : TunnelV3 RelayCore.ReferenceClient (List Bool) Unit :=
  TunnelV3.new Rater.granting (fun _ => List.replicate 20 7) ⟨50001, 50000, 200, "secret", 8, 4⟩

/-- An attempt a minute before the administrator's command. -/
theorem rejected_commands_removable_minute :
    let core := RelayCore.reference timeoutSeconds
    let M := machine core Rater.granting
    takesEffect (M.run guarded [toggleAt 60 1]) (toggleAt 120 7) =
      takesEffect guarded (toggleAt 120 7) := by
  intro core M
  have hclear : Unhindered core Rater.granting guarded [toggleAt 60 1, toggleAt 120 7] := by
    intro before b between a after hsplit _ _
    have hlength := congrArg List.length hsplit
    simp only [List.length_append, List.length_cons, List.length_nil] at hlength
    obtain rfl : before = [] := List.eq_nil_of_length_eq_zero (by omega)
    obtain rfl : between = [] := List.eq_nil_of_length_eq_zero (by omega)
    simp only [List.nil_append, List.cons_append, List.cons.injEq] at hsplit
    rw [← hsplit.1, ← hsplit.2.1]
    decide
  have heffect := ((rejected_commands_removable core Rater.granting).2 guarded _ hclear
    [toggleAt 60 1] (toggleAt 120 7) [] rfl (by decide +kernel)).2.2
  have hfilter : [toggleAt 60 1].filter (notRejected guarded) = [] := rfl
  rw [hfilter] at heffect
  exact heffect

/-- A wrong password at 60 s, and the right one at 90 s: the administrator's command has
no effect, and without the rejected one it would switch the mode on. -/
theorem rejected_command_holds_up :
    let M := machine (RelayCore.reference timeoutSeconds) Rater.granting
    let events := [toggleAt 60 1, toggleAt 90 7]
    events.map (notRejected guarded) = [false, true] ∧
      takesEffect (M.run guarded [toggleAt 60 1]) (toggleAt 90 7) = false ∧
      takesEffect guarded (toggleAt 90 7) = true ∧
      (M.run guarded events).maintenanceMode = false ∧
      (M.run guarded (events.filter (notRejected guarded))).maintenanceMode = true := by
  decide +kernel

end CncnetServer.TunnelV3
