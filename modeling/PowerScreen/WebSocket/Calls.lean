import PowerScreen.WebSocket.Client

/-! # What calls and messages leave alone

A call looks at the key of the next id only, so erasing an older entry commutes
with it; and whatever happens, the history of a client only grows.
-/
namespace PowerScreen.WebSocket
open Library

variable {H : Type*}

theorem key_of_lt {n : ℕ} (h : n < 2 ^ 32) : key n = n := Nat.mod_eq_of_lt h

namespace Client

@[simp] theorem pending_put (c : Client H) (t t' : Table) (k k' : ℕ) (e : Option (Entry H)) :
    (c.put t k e).pending t' k' = if t' = t ∧ k' = k then e else c.pending t' k' := by
  by_cases ht : t' = t
  · subst ht
    by_cases hk : k' = k <;> simp [put, hk]
  · simp [put, ht]

@[simp] theorem pending_log (c : Client H) (e : Entry H) (j : Json) :
    (c.log e j).pending = c.pending := rfl

theorem put_put_comm (c : Client H) {t t' : Table} {k k' : ℕ} (h : k ≠ k')
    (e e' : Option (Entry H)) : (c.put t k e).put t' k' e' = (c.put t' k' e').put t k e := by
  have hp : ((c.put t k e).put t' k' e').pending = ((c.put t' k' e').put t k e).pending := by
    funext s l
    simp only [pending_put]
    split_ifs with h1 h2
    · exact absurd (h2.2.symm.trans h1.2) h
    all_goals rfl
  simp only [put, Client.mk.injEq, and_true, true_and] at hp ⊢
  exact hp

/-- What a call leaves alone. -/
theorem sendJsonrpc_frame (c : Client H) (call : Call H) :
    (c.sendJsonrpc call).invoked = c.invoked ∧ (c.sendJsonrpc call).running = c.running ∧
      (c.sendJsonrpc call).calls = c.calls + 1 := by
  unfold sendJsonrpc
  cases call.registers with
  | none => exact ⟨rfl, rfl, rfl⟩
  | some r =>
    dsimp only
    split_ifs <;> exact ⟨rfl, rfl, rfl⟩

theorem sendJsonrpc_sent (c : Client H) (call : Call H) :
    c.sent <+: (c.sendJsonrpc call).sent := by
  unfold sendJsonrpc
  cases call.registers with
  | none => exact List.prefix_append _ _
  | some r =>
    dsimp only
    split_ifs
    · exact List.prefix_append _ _
    · exact List.prefix_rfl

theorem sendJsonrpc_id (c : Client H) (call : Call H) (h : c.id < 2 ^ 32) :
    c.id ≤ (c.sendJsonrpc call).id ∧ (c.sendJsonrpc call).id ≤ c.id + 1 := by
  have hnext : (c.id + 1) % 2 ^ 64 = c.id + 1 := Nat.mod_eq_of_lt (by omega)
  unfold sendJsonrpc
  cases call.registers with
  | none => simp only [transmit, hnext]; omega
  | some r =>
    dsimp only
    split_ifs
    · simp only [transmit, put, hnext]; omega
    · omega

/-- A call does not look at the keys below the next one. -/
theorem sendJsonrpc_put (c : Client H) (call : Call H) {t : Table} {k : ℕ} (hk : k < c.id)
    (hid : c.id < 2 ^ 32) (e : Option (Entry H)) :
    (c.put t k e).sendJsonrpc call = (c.sendJsonrpc call).put t k e := by
  have hne : key c.id ≠ k := by rw [key_of_lt hid]; omega
  unfold sendJsonrpc
  cases call.registers with
  | none => rfl
  | some r =>
    obtain ⟨t', h⟩ := r
    have hcalls : (c.put t k e).calls = c.calls := rfl
    have hid' : (c.put t k e).id = c.id := rfl
    simp only [pending_put, hcalls, hid', hne, and_false, if_false]
    split_ifs
    · rw [put_put_comm c (Ne.symm hne)]
      rfl
    · rfl

theorem foldl_sendJsonrpc_put (calls : List (Call H)) (c : Client H) {t : Table} {k : ℕ}
    (hk : k < c.id) (hid : c.id + calls.length ≤ 2 ^ 32) (e : Option (Entry H)) :
    calls.foldl sendJsonrpc (c.put t k e) = (calls.foldl sendJsonrpc c).put t k e := by
  induction calls generalizing c with
  | nil => rfl
  | cons call calls ih =>
    rw [List.length_cons] at hid
    have hid' := sendJsonrpc_id c call (by omega)
    rw [List.foldl_cons, List.foldl_cons, sendJsonrpc_put c call hk (by omega)]
    exact ih _ (by omega) (by omega)

/-- The history of a client only grows. -/
structure Grows (c d : Client H) : Prop where
  calls : c.calls ≤ d.calls
  sent : c.sent <+: d.sent
  invoked : c.invoked <+: d.invoked

theorem Grows.refl (c : Client H) : Grows c c := ⟨le_rfl, List.prefix_rfl, List.prefix_rfl⟩

theorem Grows.trans {c d e : Client H} (h : Grows c d) (h' : Grows d e) : Grows c e :=
  ⟨h.calls.trans h'.calls, h.sent.trans h'.sent, h.invoked.trans h'.invoked⟩

theorem grows_foldl {α : Type*} {f : Client H → α → Client H} (h : ∀ c a, Grows c (f c a))
    (xs : List α) (c : Client H) : Grows c (xs.foldl f c) := by
  induction xs generalizing c with
  | nil => exact Grows.refl c
  | cons x xs ih => exact (h c x).trans (ih _)

theorem grows_sendJsonrpc (c : Client H) (call : Call H) : Grows c (c.sendJsonrpc call) := by
  obtain ⟨hinvoked, -, hcalls⟩ := sendJsonrpc_frame c call
  refine ⟨by omega, sendJsonrpc_sent c call, ?_⟩
  rw [hinvoked]

theorem grows_invoke (react : Reaction H) (c : Client H) (f : Callee H) :
    Grows c (c.invoke react f) := grows_foldl grows_sendJsonrpc _ c

theorem grows_log (c : Client H) (e : Entry H) (j : Json) : Grows c (c.log e j) :=
  ⟨le_rfl, List.prefix_rfl, List.prefix_append _ _⟩

/-- A waiting handler is logged before it runs. -/
theorem grows_reply_some {react : Reaction H} {c : Client H} {t : Table} {k : ℕ} {j : Json}
    {e : Entry H} (hp : c.pending t k = some e) :
    Grows (c.log e j) (c.reply react t k j) := by
  have h := grows_invoke react (c.log e j) (.handler e.handler)
  rw [reply, hp]
  exact ⟨h.calls, h.sent, h.invoked⟩

theorem grows_reply (react : Reaction H) (c : Client H) (t : Table) (k : ℕ) (j : Json) :
    Grows c (c.reply react t k j) := by
  cases hp : c.pending t k with
  | none =>
    rw [reply, hp]
    exact Grows.refl c
  | some e => exact (grows_log c e j).trans (grows_reply_some hp)

theorem grows_dispatch (react : Reaction H) (c : Client H) (m : String) :
    Grows c (c.dispatch react m) := by
  refine Grows.trans ?_ (grows_foldl (fun c h => grows_invoke react c _) _ _)
  split_ifs
  · exact grows_foldl (fun c h => grows_invoke react c _) _ _
  · exact grows_invoke react c _
  · exact grows_invoke react c _
  · exact Grows.refl c

theorem grows_methods (react : Reaction H) (c : Client H) (j : Json) :
    Grows c (c.methods react j) := by
  unfold methods
  split_ifs
  · cases (j.get "method").str? with
    | none => exact ⟨le_rfl, List.prefix_rfl, List.prefix_rfl⟩
    | some m => exact grows_dispatch react c m
  · exact Grows.refl c

theorem grows_replies (overflow : ℚ → ℕ) (react : Reaction H) (c : Client H) (j : Json) :
    Grows c (c.replies overflow react j) := by
  unfold replies
  split_ifs
  · cases narrow overflow (j.get "id") with
    | none => exact ⟨le_rfl, List.prefix_rfl, List.prefix_rfl⟩
    | some k =>
      exact (grows_reply react c .consumers k j).trans (grows_reply react _ .callbacks k j)
  · exact Grows.refl c

theorem grows_step [DecidableEq H] (overflow : ℚ → ℕ) (c : Client H) (e : Event H) :
    Grows c (c.step overflow e) := by
  unfold step
  split_ifs
  · cases e with
    | call call => exact grows_sendJsonrpc c call
    | message j react =>
      exact (grows_replies overflow react c j).trans (grows_methods react _ j)
    | registerNotify h =>
      dsimp only [registerNotifyUpdate]
      split_ifs
      · exact Grows.refl c
      · exact ⟨le_rfl, List.prefix_rfl, List.prefix_rfl⟩
    | registerMethod m name h =>
      dsimp only [registerMethodCallback]
      split_ifs
      · exact Grows.refl c
      · exact ⟨le_rfl, List.prefix_rfl, List.prefix_rfl⟩
  · exact Grows.refl c

theorem calls_foldl (calls : List (Call H)) (c : Client H) :
    (calls.foldl sendJsonrpc c).calls = c.calls + calls.length := by
  induction calls generalizing c with
  | nil => rfl
  | cons call calls ih =>
    rw [List.foldl_cons, ih, (sendJsonrpc_frame c call).2.2, List.length_cons]
    omega

end Client

end PowerScreen.WebSocket
