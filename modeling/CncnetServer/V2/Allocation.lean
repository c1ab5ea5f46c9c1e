import CncnetServer.V2.Step

/-!
`handle_request` as one call with no other in between.

* `request_all_or_nothing`: at most 1000 draws decide the answer; an answer 200
  lists exactly the ids that the call has added to the mappings, and any other
  answer leaves the mappings as they were.
-/

namespace CncnetServer.TunnelV2

variable {C R A : Type} (core : RelayCore C A)

/-! ## The answer -/

/-- Decimal ids between brackets, separated by commas. -/
def parseIds : List Char → Option (List Int16)
  | '[' :: rest =>
    if rest.getLast? = some ']' then (rest.dropLast.splitOn ',').mapM parseI16 else none
  | _ => none

theorem comma_notMem_i16ToString (id : Int16) : ',' ∉ i16ToString id := by
  have hdigit : ∀ n, ',' ∉ Nat.toDigits 10 n := by
    intro n hmem
    have := Nat.isDigit_of_mem_toDigits (by decide) (by decide) hmem
    cases this
  unfold i16ToString Decimal.intText
  split
  · intro hmem
    rcases List.mem_cons.mp hmem with h | h
    · cases h
    · exact hdigit _ h
  · exact hdigit _

theorem mapM_parseI16 (ids : List Int16) : (ids.map i16ToString).mapM parseI16 = some ids := by
  induction ids with
  | nil => rfl
  | cons id ids ih => simp [List.mapM_cons, parseI16_i16ToString, ih]

/-- The body of an answer reads back as the ids it was printed from. -/
theorem parseIds_print {ids : List Int16} (hids : ids ≠ []) :
    parseIds ('[' :: List.intercalate [','] (ids.map i16ToString) ++ [']']) = some ids := by
  have hsplit : (List.intercalate [','] (ids.map i16ToString)).splitOn ',' =
      ids.map i16ToString := by
    apply List.splitOn_intercalate
    · intro s hs
      obtain ⟨id, _, rfl⟩ := List.mem_map.mp hs
      exact comma_notMem_i16ToString id
    · simpa using hids
  simp only [List.cons_append, parseIds, List.getLast?_append, List.getLast?_singleton,
    Option.some_or, if_true, List.dropLast_concat]
  rw [hsplit, mapM_parseI16]

/-! ## The query -/

/-- What is read of a query of these parameters. -/
theorem parseClients_intercalate {params : List (List Char)} (hparams : params ≠ [])
    (hsep : ∀ p ∈ params, '&' ∉ p) :
    parseClients (some (List.intercalate ['&'] params)) =
      ((params.find? (clientsPrefix.isPrefixOf ·)).bind fun p =>
        parseUsize (p.drop clientsPrefix.length)).getD 0 := by
  unfold parseClients
  rw [Option.bind_some, List.splitOn_intercalate '&' hsep hparams]

theorem parseUsize_toDigits {n : Nat} (hn : n < 2 ^ 64) :
    parseUsize (Nat.toDigits 10 n) = some n := by
  unfold parseUsize
  dsimp only
  split
  · rename_i s heq
    have hdigit : '+'.isDigit = true :=
      Nat.isDigit_of_mem_toDigits (b := 10) (n := n) (by decide) (by decide) (by simp [heq])
    cases hdigit
  · rw [Decimal.parseNat_toDigits, Option.filter_some, if_pos (decide_eq_true hn)]

/-- The first `clients=` parameter counts, wherever it stands. -/
theorem parseClients_clients {before after : List (List Char)} {n : Nat} (hn : n < 2 ^ 64)
    (hbefore : ∀ p ∈ before, '&' ∉ p ∧ ¬ clientsPrefix <+: p) (hafter : ∀ p ∈ after, '&' ∉ p) :
    parseClients (some (List.intercalate ['&']
      (before ++ (clientsPrefix ++ Nat.toDigits 10 n) :: after))) = n := by
  have hdigits : ∀ c ∈ Nat.toDigits 10 n, c.isDigit = true := fun c hc =>
    Nat.isDigit_of_mem_toDigits (by decide) (by decide) hc
  have hvalue : '&' ∉ clientsPrefix ++ Nat.toDigits 10 n := by
    intro hmem
    rcases List.mem_append.mp hmem with hmem | hmem
    · exact absurd hmem (by decide)
    · cases hdigits _ hmem
  have hnone : before.find? (clientsPrefix.isPrefixOf ·) = none := by
    rw [List.find?_eq_none]
    intro p hp hprefix
    exact (hbefore p hp).2 (List.isPrefixOf_iff_prefix.mp hprefix)
  have hfirst : clientsPrefix.isPrefixOf (clientsPrefix ++ Nat.toDigits 10 n) = true :=
    List.isPrefixOf_iff_prefix.mpr (List.prefix_append _ _)
  rw [parseClients_intercalate (by simp), List.find?_append, hnone, Option.none_or,
    List.find?_cons_of_pos hfirst, Option.bind_some, List.drop_left, parseUsize_toDigits hn,
    Option.getD_some]
  · intro p hp
    rcases List.mem_append.mp hp with hp | hp
    · exact (hbefore p hp).1
    · rcases List.mem_cons.mp hp with rfl | hp
      · exact hvalue
      · exact hafter p hp

/-- A query without a `clients=` parameter asks for nothing. -/
theorem parseClients_other {params : List (List Char)} (hparams : params ≠ [])
    (hsep : ∀ p ∈ params, '&' ∉ p) (hother : ∀ p ∈ params, ¬ clientsPrefix <+: p) :
    parseClients (some (List.intercalate ['&'] params)) = 0 := by
  have hnone : params.find? (clientsPrefix.isPrefixOf ·) = none := by
    rw [List.find?_eq_none]
    intro p hp hprefix
    exact hother p hp (List.isPrefixOf_iff_prefix.mp hprefix)
  rw [parseClients_intercalate hparams hsep, hnone]
  rfl

/-! ## The draws -/

/-- The loop looks at no more draws than it has attempts. -/
theorem allocateIds_congr (now clients left : Nat) {draws draws' : Nat → Int16}
    (h : ∀ i < left, draws' i = draws i) (m : DashMap Int16 C) (strs : List (List Char)) :
    allocateIds core now clients left draws' m strs =
      allocateIds core now clients left draws m strs := by
  induction left generalizing draws draws' m strs with
  | zero => rfl
  | succ left ih =>
    have hrest : ∀ i < left, draws' (i + 1) = draws (i + 1) := by
      intro i hi
      exact h (i + 1) (by omega)
    unfold allocateIds
    dsimp only
    rw [h 0 (by omega), ih hrest, ih hrest]

/-! ## The call -/

/-- A map that has grown by some ids has at most that many more entries. -/
theorem len_le_of_added {m m' : DashMap Int16 C} {ids : List Int16} {c : C}
    (hget : ∀ j, m'.get j = if j ∈ ids then some c else m.get j) :
    m'.len ≤ m.len + ids.length := by
  have hsub : m'.keySet ⊆ m.keySet ∪ ids.toFinset := by
    intro j hj
    rw [DashMap.mem_keySet, DashMap.mem_iff_get, hget] at hj
    rw [Finset.mem_union, DashMap.mem_keySet, List.mem_toFinset, DashMap.mem_iff_get]
    split at hj
    · rename_i hmem
      exact Or.inr hmem
    · exact Or.inl hj
  have hcard := Finset.card_le_card hsub
  have hunion := Finset.card_union_le m.keySet ids.toFinset
  have hids := List.toFinset_card_le ids
  rw [DashMap.card_keySet] at hcard hunion
  omega

/-- What an answer 200 says: these ids are new, and the mappings have grown by them. -/
structure HandsOut (t : TunnelV2 C R) (now clients : Nat) (body : List Char)
    (t' : TunnelV2 C R) (ids : List Int16) : Prop where
  body : parseIds body = some ids
  length : ids.length = clients
  bounds : 2 ≤ clients ∧ clients ≤ 8
  nodup : ids.Nodup
  fresh : ∀ id ∈ ids, id ≠ 0 ∧ id ∉ t.mappings
  added : ∀ j, t'.mappings.get j = if j ∈ ids then some (core.new now) else t.mappings.get j
  len : t'.mappings.len ≤ t.maxClients

theorem handleRequest_ok (t : TunnelV2 C R) (now : Nat) (draws : Nat → Int16)
    (query : Option (List Char))
    (h : (handleRequest core t now draws query).1.status = .ok) :
    ∃ ids, HandsOut core t now (parseClients query) (handleRequest core t now draws query).1.body
      (handleRequest core t now draws query).2 ids := by
  unfold handleRequest at h ⊢
  obtain ⟨ids, hstrs, hnodup, hfresh, hget, hcount⟩ :=
    allocateIds_spec core now (parseClients query) maxAttempts draws t.mappings []
  rw [List.nil_append] at hstrs
  split at h
  · cases h
  dsimp only at h ⊢
  split at h
  · cases h
  rename_i hm hclients
  split at h
  · cases h
  rename_i hroom
  rw [if_neg hm, if_neg hclients, if_neg hroom]
  split at h
  · cases h
  rename_i hfull
  rw [if_neg hfull]
  rw [hstrs, List.length_map] at hfull
  simp only [List.length_nil, Nat.zero_max, Nat.zero_add] at hcount
  have hlength : ids.length = parseClients query := by omega
  have hne : ids ≠ [] := by
    rintro rfl
    rw [List.length_nil] at hlength
    omega
  have hlen := len_le_of_added hget
  refine ⟨ids, ?_, hlength, by omega, hnodup, hfresh, hget, ?_⟩
  · dsimp only
    rw [hstrs]
    exact parseIds_print hne
  · dsimp only
    omega

/-- An answer other than 200 leaves every row of the mappings as it was. -/
theorem handleRequest_not_ok (t : TunnelV2 C R) (now : Nat) (draws : Nat → Int16)
    (query : Option (List Char))
    (h : (handleRequest core t now draws query).1.status ≠ .ok) (j : Int16) :
    (handleRequest core t now draws query).2.mappings.get j = t.mappings.get j := by
  unfold handleRequest at h ⊢
  split
  · rfl
  dsimp only
  split
  · rfl
  split
  · rfl
  split
  · exact rollBack_allocateIds core now _ _ draws t.mappings j
  · rename_i hm hclients hroom hfull
    rw [if_neg hm] at h
    dsimp only at h
    rw [if_neg hclients, if_neg hroom, if_neg hfull] at h
    exact absurd rfl h

/-- **All or nothing.** The answer depends on 1000 draws at most. If it is 200, its
body lists the requested number of ids, distinct, nonzero and free before, and the
mappings have grown by exactly these, as clients without endpoint, within
`max_clients`; any other answer leaves the mappings as they were. -/
theorem request_all_or_nothing (hcore : core.FixedEndpoint) (t : TunnelV2 C R) (now : Nat)
    (draws : Nat → Int16) (query : Option (List Char)) :
    let out := handleRequest core t now draws query
    (∀ draws' : Nat → Int16, (∀ i < 1000, draws' i = draws i) →
      handleRequest core t now draws' query = out) ∧
    (out.1.status = .ok → core.remoteEp (core.new now) = none ∧
      ∃ ids, HandsOut core t now (parseClients query) out.1.body out.2 ids) ∧
    (out.1.status ≠ .ok → ∀ j, out.2.mappings.get j = t.mappings.get j) := by
  intro out
  refine ⟨?_, ?_, handleRequest_not_ok core t now draws query⟩
  · intro draws' h
    have hsame := allocateIds_congr core now (parseClients query) maxAttempts h t.mappings []
    simp only [out, handleRequest, hsame]
  · intro hok
    exact ⟨hcore.remoteEp_new now, handleRequest_ok core t now draws query hok⟩

/-- Three ids for a lobby that draws 0, then 7 twice, then -5 and the largest id. -/
theorem request_all_or_nothing_three_ids :
    let core := RelayCore.reference timeoutSeconds
    let t : TunnelV2 RelayCore.ReferenceClient Unit :=
      TunnelV2.new Rater.granting ⟨50001, 50000, 200, "", 8, 4⟩
    let draws : Nat → Int16 := fun i => [0, 7, 7, -5, 32767].getD i 1
    ∃ ids, HandsOut core t 1000 3 "[7,-5,32767]".toList
      (handleRequest core t 1000 draws (some "game=ra2&clients=3".toList)).2 ids :=
  ((request_all_or_nothing (RelayCore.reference timeoutSeconds)
    (RelayCore.reference_fixedEndpoint _) _ 1000 (fun i => [0, 7, 7, -5, 32767].getD i 1)
    (some "game=ra2&clients=3".toList)).2.1 (by decide +kernel)).2

end CncnetServer.TunnelV2
