import PowerScreen.WebSocket.Calls

/-! # Replies and the requests they answer

The number of calls made so far is the next id as long as it fits the tables' keys,
so no registration ever finds its key taken. A reply is matched to its request
unless the id of a message is one that only becomes a waiting key by narrowing.
-/
namespace PowerScreen.WebSocket
open Library Library.Run

variable {H : Type*}

/-- The id of a message is the number `n`. -/
def Denotes (v : Json) (n : ℕ) : Prop := ∃ x, v.num? = some x ∧ x.toRat = n

/-- A waiting entry belongs to the call of its key and has not run yet. -/
structure Owned (c : Client H) (k : ℕ) (e : Entry H) : Prop where
  call : e.call = k
  sent : ∃ r ∈ c.sent, r.call = k ∧ r.handler = some e.handler
  fresh : ∀ i ∈ c.invoked, i.call ≠ k

structure Inv (c : Client H) : Prop where
  next : c.id = c.calls
  transmitted : c.sent.map Request.call = List.range c.calls
  numbered : ∀ r ∈ c.sent, r.id = r.call
  owned : ∀ t k e, c.pending t k = some e → Owned c k e
  single : ∀ k, c.pending .consumers k = none ∨ c.pending .callbacks k = none
  once : (c.invoked.map Invocation.call).Nodup
  own : ∀ i ∈ c.invoked, ∃ r ∈ c.sent, r.call = i.call ∧ r.handler = some i.handler ∧
    Denotes (i.message.get "id") r.id

/-- Every call has transmitted one request, ids are unique, the tables hold ids
already given out only, and every handler that ran did so once, on a message with
the id of its own request. -/
structure Matched (c : Client H) : Prop where
  transmitted : c.sent.map Request.call = List.range c.calls
  unique : (c.sent.map Request.id).Nodup
  below : ∀ t k, (c.pending t k).isSome → k < c.id
  once : (c.invoked.map Invocation.call).Nodup
  own : ∀ i ∈ c.invoked, ∃ r ∈ c.sent, r.call = i.call ∧ r.handler = some i.handler ∧
    Denotes (i.message.get "id") r.id

/-- A message whose id is narrowed to a waiting key has that key as its id. -/
def Unaliased (overflow : ℚ → ℕ) (c : Client H) : Event H → Prop
  | .message j _ => c.running → j.contains "id" → ∀ t k, narrow overflow (j.get "id") = some k →
      (c.pending t k).isSome → Denotes (j.get "id") k
  | _ => True

/-- The event is a message with the id `k`. -/
def Event.Answers : Event H → ℕ → Prop
  | .message j _, k => Denotes (j.get "id") k
  | _, _ => False

/-- Entries that the event does not answer stay in place. -/
def Keeps [DecidableEq H] (overflow : ℚ → ℕ) (c : Client H) (e : Event H) : Prop :=
  ∀ t k x, c.pending t k = some x → ¬ e.Answers k → (c.step overflow e).pending t k = some x

open Client (Grows)

theorem Owned.lt {c : Client H} (h : Inv c) {t : Table} {k : ℕ} {e : Entry H}
    (hp : c.pending t k = some e) : k < c.calls := by
  obtain ⟨r, hr, hk, -⟩ := (h.owned t k e hp).sent
  have hmem : r.call ∈ List.range c.calls := h.transmitted ▸ List.mem_map_of_mem hr
  rw [← hk]
  exact List.mem_range.mp hmem

theorem Owned.mono {c d : Client H} {k : ℕ} {e : Entry H} (h : Owned c k e)
    (hsent : c.sent ⊆ d.sent) (hinvoked : d.invoked = c.invoked) : Owned d k e where
  call := h.call
  sent := let ⟨r, hr, hk⟩ := h.sent; ⟨r, hsent hr, hk⟩
  fresh := hinvoked ▸ h.fresh

namespace Inv

theorem empty : Inv ({} : Client H) where
  next := rfl
  transmitted := rfl
  numbered := by simp
  owned := by simp
  single := by simp
  once := by simp
  own := by simp

theorem key_free {c : Client H} (h : Inv c) (t : Table) : c.pending t c.calls = none := by
  cases hp : c.pending t c.calls with
  | none => rfl
  | some e => exact absurd (Owned.lt h hp) (lt_irrefl _)

theorem transmit_eq {c : Client H} (hid : c.id = c.calls) (hc : c.calls < 2 ^ 32)
    (call : Call H) : c.transmit call =
      { c with id := c.calls + 1
               sent := c.sent ++ [⟨c.calls, c.calls, call.method, call.params?,
                call.registers.map Prod.snd⟩] } := by
  have hnext : (c.calls + 1) % 2 ^ 64 = c.calls + 1 := Nat.mod_eq_of_lt (by omega)
  rw [Client.transmit, hid, hnext]

/-- A call in a good state: the branch that sends nothing is never taken. -/
theorem sendJsonrpc_eq {c : Client H} (h : Inv c) (hc : c.calls < 2 ^ 32) (call : Call H) :
    c.sendJsonrpc call =
      { (call.registers.elim c fun r => c.put r.1 c.calls (some ⟨r.2, c.calls⟩)) with
        id := c.calls + 1
        calls := c.calls + 1
        sent := c.sent ++
          [⟨c.calls, c.calls, call.method, call.params?, call.registers.map Prod.snd⟩] } := by
  unfold Client.sendJsonrpc
  cases hr : call.registers with
  | none =>
    dsimp only
    rw [transmit_eq h.next hc, hr]
    rfl
  | some r =>
    have hfree : (c.pending r.1 (key c.id)).isNone := by
      rw [h.next, key_of_lt hc, h.key_free]
      rfl
    dsimp only
    rw [if_pos hfree, h.next, key_of_lt hc,
      transmit_eq (c := c.put r.1 c.calls (some ⟨r.2, c.calls⟩)) h.next hc, hr]
    rfl

theorem pending_sendJsonrpc {c : Client H} (h : Inv c) (hc : c.calls < 2 ^ 32) (call : Call H)
    (t : Table) (k : ℕ) : (c.sendJsonrpc call).pending t k =
      if k = c.calls then
        (call.registers.filter (·.1 = t)).map fun r => ⟨r.2, c.calls⟩
      else c.pending t k := by
  rw [h.sendJsonrpc_eq hc]
  cases call.registers with
  | none =>
    split_ifs with hk
    · rw [hk]
      exact h.key_free t
    · rfl
  | some r =>
    have hput : (c.put r.1 c.calls (some ⟨r.2, c.calls⟩)).pending t k =
        if t = r.1 ∧ k = c.calls then some ⟨r.2, c.calls⟩ else c.pending t k :=
      Client.pending_put _ _ _ _ _ _
    refine hput.trans ?_
    by_cases hk : k = c.calls
    · by_cases ht : t = r.1
      · simp [hk, ht, Option.filter]
      · simp [hk, ht, Ne.symm ht, Option.filter, h.key_free]
    · simp [hk]

theorem sendJsonrpc {c : Client H} (h : Inv c) (hc : c.calls < 2 ^ 32) (call : Call H) :
    Inv (c.sendJsonrpc call) := by
  have heq := h.sendJsonrpc_eq hc call
  have hnext : (c.sendJsonrpc call).id = c.calls + 1 := by rw [heq]
  have hsent : (c.sendJsonrpc call).sent = c.sent ++
      [⟨c.calls, c.calls, call.method, call.params?, call.registers.map Prod.snd⟩] := by rw [heq]
  obtain ⟨hinvoked, -, hcalls⟩ := Client.sendJsonrpc_frame c call
  have hsub : c.sent ⊆ (c.sendJsonrpc call).sent := (Client.sendJsonrpc_sent c call).subset
  constructor
  case next => rw [hnext, hcalls]
  case transmitted =>
    rw [hsent, hcalls, List.map_append, h.transmitted, List.range_succ]
    rfl
  case numbered =>
    intro r hr
    rw [hsent, List.mem_append, List.mem_singleton] at hr
    rcases hr with hr | rfl
    · exact h.numbered r hr
    · rfl
  case owned =>
    intro t k e hp
    rw [h.pending_sendJsonrpc hc] at hp
    split_ifs at hp with hk
    · -- the entry this call has registered
      obtain ⟨r, hr, rfl⟩ := Option.map_eq_some_iff.mp hp
      have hreg : call.registers = some r := (Option.filter_eq_some_iff.mp hr).1
      refine ⟨hk.symm, ⟨_, by rw [hsent]; exact List.mem_append_right _ List.mem_cons_self,
        hk.symm, by rw [hreg]; rfl⟩, fun i hi => ?_⟩
      rw [hinvoked] at hi
      obtain ⟨r', hr', hcall, -⟩ := h.own i hi
      have hmem : r'.call ∈ List.range c.calls := h.transmitted ▸ List.mem_map_of_mem hr'
      have hlt := List.mem_range.mp hmem
      omega
    · exact (h.owned t k e hp).mono hsub hinvoked
  case single =>
    intro k
    rw [h.pending_sendJsonrpc hc, h.pending_sendJsonrpc hc]
    split_ifs
    · cases call.registers with
      | none => exact Or.inl rfl
      | some r =>
        obtain ⟨t, f⟩ := r
        cases t
        · exact Or.inl rfl
        · exact Or.inr rfl
    · exact h.single k
  case once => rw [hinvoked]; exact h.once
  case own =>
    intro i hi
    rw [hinvoked] at hi
    obtain ⟨r, hr, hown⟩ := h.own i hi
    exact ⟨r, hsub hr, hown⟩

/-- A handler is taken out of its table and run on a message with its id. -/
theorem take {c : Client H} (h : Inv c) {t : Table} {k : ℕ} {e : Entry H} {j : Json}
    (hp : c.pending t k = some e) (hj : Denotes (j.get "id") k) :
    Inv ((c.log e j).put t k none) := by
  have he := h.owned t k e hp
  constructor
  case next => exact h.next
  case transmitted => exact h.transmitted
  case numbered => exact h.numbered
  case owned =>
    intro t' k' e' hp'
    rw [Client.pending_put] at hp'
    split_ifs at hp' with hk
    rw [Client.pending_log] at hp'
    have he' : Owned c k' e' := h.owned t' k' e' hp'
    refine ⟨he'.call, he'.sent, fun i hi => ?_⟩
    rcases List.mem_append.mp hi with hi | hi
    · exact he'.fresh i hi
    · -- the two tables never hold the same key
      rw [List.mem_singleton.mp hi]
      intro hkk
      have hkk' : k' = k := hkk.symm.trans he.call
      subst hkk'
      have htt : t' = t := by
        have hs := h.single k'
        cases t <;> cases t' <;> simp_all
      exact hk ⟨htt, rfl⟩
  case single =>
    intro k'
    simp only [Client.pending_put, Client.pending_log]
    rcases h.single k' with hs | hs <;> simp [hs]
  case once =>
    have hnot : e.call ∉ c.invoked.map Invocation.call := by
      rw [he.call, List.mem_map]
      rintro ⟨i, hi, hik⟩
      exact he.fresh i hi hik
    have hmap : ((c.log e j).put t k none).invoked.map Invocation.call =
        c.invoked.map Invocation.call ++ [e.call] := List.map_append
    rw [hmap, List.nodup_append]
    refine ⟨h.once, List.nodup_singleton _, fun a ha b hb hab => hnot ?_⟩
    rw [← List.mem_singleton.mp hb, ← hab]
    exact ha
  case own =>
    intro i hi
    rcases List.mem_append.mp hi with hi | hi
    · exact h.own i hi
    · obtain ⟨r, hr, hrk, hrh⟩ := he.sent
      rw [List.mem_singleton.mp hi]
      exact ⟨r, hr, hrk.trans he.call.symm, hrh, by rw [h.numbered r hr, hrk]; exact hj⟩

end Inv

/-- Every entry of one state is still there in the other. -/
def Extends (c d : Client H) : Prop := ∀ t k x, c.pending t k = some x → d.pending t k = some x

theorem Extends.refl (c : Client H) : Extends c c := fun _ _ _ h => h

theorem Extends.trans {c d e : Client H} (h : Extends c d) (h' : Extends d e) : Extends c e :=
  fun t k x hx => h' t k x (h t k x hx)

namespace Inv

theorem extends_sendJsonrpc {c : Client H} (h : Inv c) (hc : c.calls < 2 ^ 32) (call : Call H) :
    Extends c (c.sendJsonrpc call) := by
  intro t k x hx
  rw [h.pending_sendJsonrpc hc, if_neg (Owned.lt h hx).ne, hx]

/-- A fold of operations that keep the invariant, under a bound on the calls made. -/
theorem foldl {α : Type*} {f : Client H → α → Client H} (hgrows : ∀ c a, Grows c (f c a))
    (hkeep : ∀ c a, Inv c → (f c a).calls ≤ 2 ^ 32 → Inv (f c a) ∧ Extends c (f c a))
    (xs : List α) {c : Client H} (h : Inv c) (hb : (xs.foldl f c).calls ≤ 2 ^ 32) :
    Inv (xs.foldl f c) ∧ Extends c (xs.foldl f c) := by
  induction xs generalizing c with
  | nil => exact ⟨h, Extends.refl c⟩
  | cons x xs ih =>
    have hx := hkeep c x h ((Client.grows_foldl hgrows xs (f c x)).calls.trans hb)
    have hxs := ih hx.1 hb
    exact ⟨hxs.1, hx.2.trans hxs.2⟩

theorem calls {c : Client H} (h : Inv c) (calls : List (Call H))
    (hb : (calls.foldl Client.sendJsonrpc c).calls ≤ 2 ^ 32) :
    Inv (calls.foldl Client.sendJsonrpc c) ∧ Extends c (calls.foldl Client.sendJsonrpc c) := by
  refine foldl Client.grows_sendJsonrpc (fun c call h hb => ?_) calls h hb
  have hc : c.calls < 2 ^ 32 := by
    rw [(Client.sendJsonrpc_frame c call).2.2] at hb
    omega
  exact ⟨h.sendJsonrpc hc call, h.extends_sendJsonrpc hc call⟩

theorem invoke {c : Client H} (h : Inv c) (react : Reaction H) (f : Callee H)
    (hb : (c.invoke react f).calls ≤ 2 ^ 32) :
    Inv (c.invoke react f) ∧ Extends c (c.invoke react f) :=
  h.calls _ hb

/-- Running a handler before its entry is erased is as good as erasing it first. -/
theorem reply {c : Client H} (h : Inv c) (react : Reaction H) (t : Table) {k : ℕ} {j : Json}
    (hj : Denotes (j.get "id") k) (hb : (c.reply react t k j).calls ≤ 2 ^ 32) :
    Inv (c.reply react t k j) ∧
      ∀ t' k' x, c.pending t' k' = some x → k' ≠ k →
        (c.reply react t k j).pending t' k' = some x := by
  unfold Client.reply at hb ⊢
  cases hp : c.pending t k with
  | none => exact ⟨h, fun t' k' x hx _ => hx⟩
  | some e =>
    rw [hp] at hb
    dsimp only [Client.invoke] at hb ⊢
    have hbound : (c.log e j).id + (react (c.log e j) (.handler e.handler)).length ≤ 2 ^ 32 := by
      have hcalls : (c.log e j).id = (c.log e j).calls := h.next
      rw [hcalls, ← Client.calls_foldl]
      exact hb
    have hlt : k < (c.log e j).id := (Owned.lt h hp).trans_eq h.next.symm
    rw [← Client.foldl_sendJsonrpc_put _ _ hlt hbound] at hb ⊢
    have hrun := (h.take hp hj).calls _ hb
    refine ⟨hrun.1, fun t' k' x hx hk => hrun.2 t' k' x ?_⟩
    rw [Client.pending_put, if_neg fun hh => hk hh.2]
    exact hx

end Inv
end PowerScreen.WebSocket
