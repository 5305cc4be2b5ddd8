import PowerScreen.WebSocket.Matching

/-! # Matching over whole runs

As long as no message carries an id that aliases a waiting key, every run with
fewer than 2^32 requests keeps requests and replies matched; the first message
that does carry one breaks the matching.
-/
namespace PowerScreen.WebSocket
open Library Library.Run

variable {H : Type*}

namespace Inv

theorem dispatch {c : Client H} (h : Inv c) (react : Reaction H) (m : String)
    (hb : (c.dispatch react m).calls ≤ 2 ^ 32) :
    Inv (c.dispatch react m) ∧ Extends c (c.dispatch react m) := by
  have hlist {α : Type _} (g : α → Callee H) (xs : List α) {d : Client H} (hd : Inv d)
      (hbd : (xs.foldl (fun c x => c.invoke react (g x)) d).calls ≤ 2 ^ 32) :
      Inv (xs.foldl (fun c x => c.invoke react (g x)) d) ∧
        Extends d (xs.foldl (fun c x => c.invoke react (g x)) d) :=
    foldl (fun c x => Client.grows_invoke react c (g x)) (fun c x hc => hc.invoke react (g x))
      xs hd hbd
  have hmono := fun d : Client H => Client.grows_foldl
    (fun c (x : String × H) => Client.grows_invoke react c (.handler x.2))
    ((d.methodRespCbs.lookup m).getD []) d
  unfold Client.dispatch at hb ⊢
  split_ifs at hb ⊢
  · have hfirst := hlist .handler c.notifyConsumers h ((hmono _).calls.trans hb)
    have hrest := hlist (fun x : String × H => .handler x.2) _ hfirst.1 hb
    exact ⟨hrest.1, hfirst.2.trans hrest.2⟩
  · have hfirst := h.invoke react .disconnected ((hmono _).calls.trans hb)
    have hrest := hlist (fun x : String × H => .handler x.2) _ hfirst.1 hb
    exact ⟨hrest.1, hfirst.2.trans hrest.2⟩
  · have hfirst := h.invoke react .connected ((hmono _).calls.trans hb)
    have hrest := hlist (fun x : String × H => .handler x.2) _ hfirst.1 hb
    exact ⟨hrest.1, hfirst.2.trans hrest.2⟩
  · exact hlist (fun x : String × H => .handler x.2) _ h hb

/-- The registries and the running flag do not matter. -/
theorem frame {c : Client H} (h : Inv c) (ns : List H) (ms : List (String × List (String × H)))
    (r : Bool) :
    Inv { c with notifyConsumers := ns, methodRespCbs := ms, running := r } where
  next := h.next
  transmitted := h.transmitted
  numbered := h.numbered
  owned t k e hp := ⟨(h.owned t k e hp).call, (h.owned t k e hp).sent, (h.owned t k e hp).fresh⟩
  single := h.single
  once := h.once
  own := h.own

theorem methods {c : Client H} (h : Inv c) (react : Reaction H) (j : Json)
    (hb : (c.methods react j).calls ≤ 2 ^ 32) :
    Inv (c.methods react j) ∧ Extends c (c.methods react j) := by
  unfold Client.methods at hb ⊢
  split_ifs at hb ⊢
  · cases hm : (j.get "method").str? with
    | none => exact ⟨h.frame _ _ _, Extends.refl c⟩
    | some m =>
      rw [hm] at hb
      exact h.dispatch react m hb
  · exact ⟨h, Extends.refl c⟩

theorem replies {c : Client H} (h : Inv c) (overflow : ℚ → ℕ) (react : Reaction H) (j : Json)
    (hrun : c.running) (halias : Unaliased overflow c (.message j react))
    (hb : (c.replies overflow react j).calls ≤ 2 ^ 32) :
    Inv (c.replies overflow react j) ∧ ∀ t k x, c.pending t k = some x →
      ¬ Denotes (j.get "id") k → (c.replies overflow react j).pending t k = some x := by
  unfold Client.replies at hb ⊢
  split_ifs at hb ⊢ with hid
  · cases hk : narrow overflow (j.get "id") with
    | none => exact ⟨h.frame _ _ _, fun t k x hx _ => hx⟩
    | some k =>
      rw [hk] at hb
      dsimp only at hb ⊢
      by_cases hj : Denotes (j.get "id") k
      · have hfirst := h.reply react .consumers hj
          ((Client.grows_reply react _ .callbacks k j).calls.trans hb)
        have hsecond := hfirst.1.reply react .callbacks hj hb
        refine ⟨hsecond.1, fun t k' x hx hne => ?_⟩
        have hkk : k' ≠ k := fun heq => hne (heq ▸ hj)
        exact hsecond.2 t k' x (hfirst.2 t k' x hx hkk) hkk
      · -- an id that denotes another number finds nothing waiting
        have hnone (t : Table) : c.pending t k = none := by
          by_contra hp
          exact hj (halias hrun hid t k hk (Option.isSome_iff_ne_none.mpr hp))
        have hreply (t : Table) : c.reply react t k j = c := by rw [Client.reply, hnone]
        rw [hreply, hreply]
        exact ⟨h, fun t k' x hx _ => hx⟩
  · exact ⟨h, fun t k x hx _ => hx⟩

theorem step [DecidableEq H] {c : Client H} (h : Inv c) (overflow : ℚ → ℕ) (e : Event H)
    (halias : Unaliased overflow c e) (hb : (c.step overflow e).calls < 2 ^ 32) :
    Inv (c.step overflow e) ∧ Keeps overflow c e := by
  unfold Keeps
  unfold Client.step at hb ⊢
  split_ifs at hb ⊢ with hrun
  · cases e with
    | call call =>
      dsimp only at hb ⊢
      have hc : c.calls < 2 ^ 32 := by
        rw [(Client.sendJsonrpc_frame c call).2.2] at hb
        omega
      exact ⟨h.sendJsonrpc hc call, fun t k x hx _ => h.extends_sendJsonrpc hc call t k x hx⟩
    | message j react =>
      dsimp only [Client.receive] at hb ⊢
      have hreplies := h.replies overflow react j hrun halias
        ((Client.grows_methods react _ j).calls.trans hb.le)
      have hmethods := hreplies.1.methods react j hb.le
      exact ⟨hmethods.1, fun t k x hx hne => hmethods.2 t k x (hreplies.2 t k x hx hne)⟩
    | registerNotify f =>
      dsimp only [Client.registerNotifyUpdate]
      split_ifs
      · exact ⟨h, fun t k x hx _ => hx⟩
      · exact ⟨h.frame _ _ _, fun t k x hx _ => hx⟩
    | registerMethod m name f =>
      dsimp only [Client.registerMethodCallback]
      split_ifs
      · exact ⟨h, fun t k x hx _ => hx⟩
      · exact ⟨h.frame _ _ _, fun t k x hx _ => hx⟩
  · exact ⟨h, fun t k x hx _ => hx⟩

theorem matched {c : Client H} (h : Inv c) : Matched c where
  transmitted := h.transmitted
  unique := by
    have hid : c.sent.map Request.id = c.sent.map Request.call :=
      List.map_congr_left h.numbered
    rw [hid, h.transmitted]
    exact List.nodup_range
  below t k hp := by
    obtain ⟨e, he⟩ := Option.isSome_iff_exists.mp hp
    exact h.next ▸ Owned.lt h he
  once := h.once
  own := h.own

end Inv

/-- The waiting handler that a message reaches is logged with that message. -/
theorem logged_of_pending {c : Client H} (h : Inv c) {overflow : ℚ → ℕ} (react : Reaction H)
    {j : Json} (hid : j.contains "id") {t : Table} {k : ℕ}
    (hk : narrow overflow (j.get "id") = some k) (hp : (c.pending t k).isSome) :
    ∃ i ∈ (c.receive overflow react j).invoked, i.call = k ∧ i.message = j := by
  obtain ⟨e, he⟩ := Option.isSome_iff_exists.mp hp
  have hreplies : c.replies overflow react j =
      (c.reply react .consumers k j).reply react .callbacks k j := by
    rw [Client.replies, if_pos hid, hk]
  have hlog : ⟨e.call, e.handler, j⟩ ∈ (c.replies overflow react j).invoked := by
    have hmem : ⟨e.call, e.handler, j⟩ ∈ (c.log e j).invoked :=
      List.mem_append_right _ List.mem_cons_self
    rw [hreplies]
    cases t with
    | consumers =>
      exact (Client.grows_reply react _ .callbacks k j).invoked.subset
        ((Client.grows_reply_some he).invoked.subset hmem)
    | callbacks =>
      have hnone : c.pending .consumers k = none := by
        rcases h.single k with hs | hs
        · exact hs
        · rw [hs] at he
          cases he
      have hfirst : c.reply react .consumers k j = c := by rw [Client.reply, hnone]
      rw [hfirst]
      exact (Client.grows_reply_some he).invoked.subset hmem
  exact ⟨_, (Client.grows_methods react _ j).invoked.subset hlog, (h.owned t k e he).call, rfl⟩

/-- A matched state after a message means that its id was no alias. -/
theorem unaliased_of_matched [DecidableEq H] {c : Client H} (h : Inv c) (overflow : ℚ → ℕ)
    (e : Event H) (hm : Matched (c.step overflow e)) : Unaliased overflow c e := by
  cases e with
  | message j react =>
    intro hrun hid t k hk hp
    have hstep : c.step overflow (.message j react) = c.receive overflow react j := if_pos hrun
    obtain ⟨x, hx⟩ := Option.isSome_iff_exists.mp hp
    obtain ⟨i, hi, hik, hij⟩ := logged_of_pending h react hid hk hp
    obtain ⟨r, hr, hri, -, hdenotes⟩ := hm.own i (hstep ▸ hi)
    obtain ⟨r', hr', hrk', -⟩ := (h.owned t k x hx).sent
    -- the request of call `k` is still the one that was sent before
    have hmem : r' ∈ (c.step overflow (.message j react)).sent :=
      (Client.grows_step overflow c _).sent.subset hr'
    have hnodup : ((c.step overflow (.message j react)).sent.map Request.call).Nodup := by
      rw [hm.transmitted]
      exact List.nodup_range
    have hrr : r = r' :=
      List.inj_on_of_nodup_map hnodup hr hmem (by rw [hri, hik, hrk'])
    rw [hrr, h.numbered r' hr', hrk', hij] at hdenotes
    exact hdenotes
  | _ => trivial

theorem calls_run [DecidableEq H] (overflow : ℚ → ℕ) (es : List (Event H)) (c : Client H)
    {n : ℕ} (h : (run (Client.step overflow) c es).calls < n) :
    EachStep (Client.step overflow) (fun c e => (c.step overflow e).calls < n) c es := by
  induction es generalizing c with
  | nil => trivial
  | cons e es ih =>
    have hgrows : Client.Grows (c.step overflow e) (run (Client.step overflow) c (e :: es)) :=
      Client.grows_foldl (Client.grows_step overflow) es _
    exact ⟨hgrows.calls.trans_lt h, ih _ h⟩

/-- In every run with fewer than 2^32 requests, re-entrant ones included, requests
and replies are matched throughout exactly when no message carries an alias of a
waiting id; and then every message leaves all entries in place but that of its id. -/
theorem matched_throughout_iff [DecidableEq H] (overflow : ℚ → ℕ) (es : List (Event H))
    (h : (run (Client.step overflow) {} es).calls < 2 ^ 32) :
    (Throughout (Client.step overflow) Matched {} es ↔
      EachStep (Client.step overflow) (Unaliased overflow) {} es) ∧
    (EachStep (Client.step overflow) (Unaliased overflow) {} es →
      EachStep (Client.step overflow) (Keeps overflow) {} es) := by
  have hcalls := calls_run overflow es {} h
  constructor
  · exact throughout_iff_eachStep_inv (I := Inv) (P := Matched) (fun _ hs => hs.matched)
      (fun c e hb hs halias => (hs.step overflow e halias hb).1)
      (fun c e _ hs hm => unaliased_of_matched hs overflow e hm) Inv.empty hcalls
  · intro halias
    have hinv := (halias.and hcalls).with_invariant (I := Inv)
      (fun c e hs hC => (hs.step overflow e hC.1 hC.2).1) Inv.empty
    exact hinv.mono fun c e hC => (hC.1.step overflow e hC.2.1 hC.2.2).2

def silent : Reaction ℕ := fun _ _ => []

/-- One request and a reply with its id. -/
theorem matched_one_reply :
    (run (Client.step fun _ => 0) {} [.call (.cb "server.info" 7),
      .message (.obj [("id", .num (.int 0))]) silent]).calls < 2 ^ 32 ∧
    (Throughout (Client.step fun _ => 0) Matched {} [.call (.cb "server.info" 7),
        .message (.obj [("id", .num (.int 0))]) silent] ↔
      EachStep (Client.step fun _ => 0) (Unaliased fun _ => 0) {} [.call (.cb "server.info" 7),
        .message (.obj [("id", .num (.int 0))]) silent]) :=
  ⟨by decide, (matched_throughout_iff (fun _ => 0) _ (by decide)).1⟩

/-- The id 2^32 was never sent, and runs the handler that waits for the reply 0. -/
theorem alias_runs_handler :
    (run (Client.step fun _ => 0) {} [.call (.cb "server.info" 7),
      .message (.obj [("id", .num (.int (2 ^ 32)))]) silent]).calls < 2 ^ 32 ∧
    ¬ Throughout (Client.step fun _ => 0) Matched {} [.call (.cb "server.info" 7),
      .message (.obj [("id", .num (.int (2 ^ 32)))]) silent] := by
  refine ⟨by decide, fun h => ?_⟩
  obtain ⟨r, hr, -, -, x, hx, hxr⟩ := h.2.2.own
    ⟨0, 7, .obj [("id", .num (.int (2 ^ 32)))]⟩ List.mem_cons_self
  have hid : r.id = 0 := by
    rw [List.mem_singleton.mp hr]
    rfl
  cases hx
  rw [hid] at hxr
  exact absurd hxr (by norm_num [Num.toRat])

end PowerScreen.WebSocket
