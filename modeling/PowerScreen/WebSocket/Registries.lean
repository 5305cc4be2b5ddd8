import PowerScreen.WebSocket.Calls

/-! # Who a notification reaches

Consumers of the status updates are kept in the order of their registration, the handlers of a
method by their names. The end of the consumers that stay is erased as a single position, which
there is none of if nobody was removed; and a handler's name that is taken stays as it is.
-/
namespace PowerScreen.WebSocket
open Library Library.Run

variable {H : Type*}

/-- `erase(remove_if(…))` with one iterator: what is kept moves to the front, and the element at the
end of it is erased. Past the end that is undefined (`none`). -/
def eraseRemoveIf [DecidableEq H] (h : H) (l : List H) : Option (List H) :=
  let kept := l.filter (· ≠ h)
  let moved := kept ++ l.drop kept.length
  if kept.length < moved.length then some (moved.eraseIdx kept.length) else none

namespace Client

def unregisterNotifyUpdate [DecidableEq H] (c : Client H) (h : H) : Option (Client H) :=
  (eraseRemoveIf h c.notifyConsumers).map fun consumers => { c with notifyConsumers := consumers }

/-- The handlers of a method, by their names. -/
def handlers (c : Client H) (method : String) : List (String × H) :=
  (c.methodRespCbs.lookup method).getD []

/-- What a message of a method runs, in this order. -/
def callees (c : Client H) (method : String) : List (Callee H) :=
  (if method = "notify_status_update" then c.notifyConsumers.map .handler
    else if method = "notify_klippy_disconnected" then [.disconnected]
    else if method = "notify_klippy_ready" then [.connected]
    else []) ++ (c.handlers method).map fun h => .handler h.2

/-- What the calls of a callee leave alone. -/
def registries (c : Client H) : List H × List (String × List (String × H)) :=
  (c.notifyConsumers, c.methodRespCbs)

theorem registries_sendJsonrpc (c : Client H) (call : Call H) :
    (c.sendJsonrpc call).registries = c.registries := by
  unfold sendJsonrpc
  cases call.registers with
  | none => rfl
  | some r =>
    dsimp only
    split_ifs <;> rfl

theorem registries_foldl {α : Type*} {f : Client H → α → Client H}
    (h : ∀ c a, (f c a).registries = c.registries) (l : List α) (c : Client H) :
    (l.foldl f c).registries = c.registries := by
  induction l generalizing c with
  | nil => rfl
  | cons a l ih => rw [List.foldl_cons, ih, h]

theorem registries_invoke (react : Reaction H) (c : Client H) (f : Callee H) :
    (c.invoke react f).registries = c.registries :=
  registries_foldl registries_sendJsonrpc _ c

theorem handlers_of_registries {c d : Client H} (h : d.registries = c.registries)
    (method : String) : d.handlers method = c.handlers method := by
  rw [handlers, handlers, show d.methodRespCbs = c.methodRespCbs from congrArg Prod.snd h]

/-- A message runs its callees one after the other. -/
theorem dispatch_eq (react : Reaction H) (c : Client H) (method : String) :
    c.dispatch react method = (c.callees method).foldl (Client.invoke react) c := by
  have hhandlers (d : Client H) (hd : d.registries = c.registries) :
      ((d.methodRespCbs.lookup method).getD []).foldl (fun c h => c.invoke react (.handler h.2)) d =
        ((c.handlers method).map fun h => Callee.handler h.2).foldl (Client.invoke react) d := by
    rw [List.foldl_map, ← handlers_of_registries hd, handlers]
  have hconsumers : (c.notifyConsumers.map Callee.handler).foldl (Client.invoke react) c =
      c.notifyConsumers.foldl (fun c h => c.invoke react (.handler h)) c := List.foldl_map
  rw [dispatch, callees, List.foldl_append]
  split_ifs
  · rw [hconsumers]
    exact hhandlers _ (registries_foldl (fun c h => registries_invoke react c _) _ c)
  · exact hhandlers _ (registries_invoke react c _)
  · exact hhandlers _ (registries_invoke react c _)
  · exact hhandlers c rfl

theorem registries_dispatch (react : Reaction H) (c : Client H) (method : String) :
    (c.dispatch react method).registries = c.registries := by
  rw [dispatch_eq]
  exact registries_foldl (registries_invoke react) _ c

theorem handlers_registerMethodCallback_of_taken {c : Client H} {method name : String} {h' : H}
    (htaken : (c.handlers method).lookup name = some h') (h : H) :
    c.registerMethodCallback method name h = c := by
  have hsome : (((c.methodRespCbs.lookup method).getD []).lookup name).isSome := by
    rw [show (c.methodRespCbs.lookup method).getD [] = c.handlers method from rfl, htaken]
    rfl
  rw [registerMethodCallback, if_pos hsome]

theorem handlers_registerMethodCallback {c : Client H} {method name : String}
    (hfree : (c.handlers method).lookup name = none) (h : H) (m : String) :
    (c.registerMethodCallback method name h).handlers m =
      if m = method then Assoc.insert name h (c.handlers method) else c.handlers m := by
  have hnone : ¬(((c.methodRespCbs.lookup method).getD []).lookup name).isSome := by
    rw [show (c.methodRespCbs.lookup method).getD [] = c.handlers method from rfl, hfree]
    simp
  rw [registerMethodCallback, if_neg hnone, handlers, Assoc.lookup_insert]
  split_ifs <;> rfl

theorem notifyConsumers_registerMethodCallback (c : Client H) (method name : String) (h : H) :
    (c.registerMethodCallback method name h).notifyConsumers = c.notifyConsumers := by
  unfold registerMethodCallback
  dsimp only
  split_ifs <;> rfl

end Client

inductive Registration (H : Type*) where
  | notify (h : H)
  | unregister (h : H)
  | method (method name : String) (h : H)
  | message (method : String) (react : Reaction H)

/-- Who is registered: the consumers in their order, and for each method the handler that was
registered last under a name. -/
structure Registered (H : Type*) where
  consumers : List H := []
  handler : String → String → Option H := fun _ _ => none

def Registered.step [DecidableEq H] (r : Registered H) : Registration H → Registered H
  | .notify h => if h ∈ r.consumers then r else { r with consumers := r.consumers ++ [h] }
  | .unregister h => { r with consumers := r.consumers.filter (· ≠ h) }
  | .method method name h =>
    { r with handler := fun m n => if m = method ∧ n = name then some h else r.handler m n }
  | .message _ _ => r

/-- The client, as long as it is defined, and who is registered. -/
structure Registry (H : Type*) where
  client : Option (Client H) := some {}
  registered : Registered H := {}

namespace Registry

variable [DecidableEq H]

def step (s : Registry H) (r : Registration H) : Registry H where
  client := s.client.bind fun c =>
    match r with
    | .notify h => some (c.registerNotifyUpdate h)
    | .unregister h => c.unregisterNotifyUpdate h
    | .method method name h => some (c.registerMethodCallback method name h)
    | .message method react => some (c.dispatch react method)
  registered := s.registered.step r

/-- The consumers of a client are those registered, each of them once and in their order; each
name has one handler for a method, the one registered last. -/
structure Reaches (c : Client H) (r : Registered H) : Prop where
  consumers : c.notifyConsumers = r.consumers
  once : r.consumers.Nodup
  names : ∀ method, Assoc.Sorted (c.handlers method)
  handler : ∀ method name, (c.handlers method).lookup name = r.handler method name

def Served (s : Registry H) : Prop := ∃ c, s.client = some c ∧ Reaches c s.registered

/-- Only who is registered is unregistered, and a name that has a handler is given the same
again. -/
def Proper (s : Registry H) : Registration H → Prop
  | .notify _ | .message _ _ => True
  | .unregister h => h ∈ s.registered.consumers
  | .method method name h => ∀ h', s.registered.handler method name = some h' → h' = h

theorem eraseRemoveIf_of_mem {h : H} {l : List H} (hl : l.Nodup) (hmem : h ∈ l) :
    eraseRemoveIf h l = some (l.filter (· ≠ h)) := by
  have hkept : l.filter (· ≠ h) = l.erase h := by
    rw [hl.erase_eq_filter]
    exact List.filter_congr fun x _ => by by_cases hx : x = h <;> simp [hx]
  have hlen : (l.filter (· ≠ h)).length + 1 = l.length := by
    have := List.length_pos_of_mem hmem
    rw [hkept, List.length_erase_of_mem hmem]
    omega
  have hdrop : (l.drop (l.filter (· ≠ h)).length).length = 1 := by
    rw [List.length_drop]
    omega
  obtain ⟨x, hx⟩ := List.length_eq_one_iff.mp hdrop
  rw [eraseRemoveIf, hx, if_pos (by simp), List.eraseIdx_append_of_length_le le_rfl, Nat.sub_self]
  simp

theorem eraseRemoveIf_of_not_mem {h : H} {l : List H} (hmem : h ∉ l) :
    eraseRemoveIf h l = none := by
  have hkept : l.filter (· ≠ h) = l := List.filter_eq_self.mpr fun x hx =>
    decide_eq_true fun hxh => hmem (hxh ▸ hx)
  rw [eraseRemoveIf, hkept]
  simp

namespace Reaches

variable {c : Client H} {r : Registered H}

theorem notify (hr : Reaches c r) (h : H) :
    Reaches (c.registerNotifyUpdate h) (r.step (.notify h)) := by
  rw [Client.registerNotifyUpdate, Registered.step, hr.consumers]
  split_ifs with hmem
  · exact hr
  · have honce : (r.consumers ++ [h]).Nodup :=
      List.nodup_append_comm.mp (List.nodup_cons.mpr ⟨hmem, hr.once⟩)
    exact ⟨rfl, honce, hr.names, hr.handler⟩

theorem unregister (hr : Reaches c r) {h : H} (hmem : h ∈ r.consumers) :
    ∃ d, c.unregisterNotifyUpdate h = some d ∧ Reaches d (r.step (.unregister h)) := by
  refine ⟨{ c with notifyConsumers := r.consumers.filter (· ≠ h) }, ?_, rfl,
    hr.once.filter _, hr.names, hr.handler⟩
  rw [Client.unregisterNotifyUpdate, hr.consumers, eraseRemoveIf_of_mem hr.once hmem]
  rfl

theorem unregister_of_not_mem (hr : Reaches c r) {h : H} (hmem : h ∉ r.consumers) :
    c.unregisterNotifyUpdate h = none := by
  rw [Client.unregisterNotifyUpdate, hr.consumers, eraseRemoveIf_of_not_mem hmem]
  rfl

theorem method_of_free (hr : Reaches c r) {method name : String}
    (hfree : r.handler method name = none) (h : H) :
    Reaches (c.registerMethodCallback method name h) (r.step (.method method name h)) := by
  have hs := Client.handlers_registerMethodCallback (c := c)
    ((hr.handler method name).trans hfree) h
  refine ⟨?_, hr.once, fun m => ?_, fun m n => ?_⟩
  · rw [Client.notifyConsumers_registerMethodCallback, hr.consumers]
    rfl
  · rw [hs]
    split_ifs
    · exact (hr.names method).insert name h
    · exact hr.names m
  · rw [hs]
    dsimp only [Registered.step]
    by_cases hm : m = method
    · subst hm
      rw [if_pos rfl, Assoc.lookup_insert, hr.handler]
      simp
    · rw [if_neg hm, if_neg fun hmn => hm hmn.1, hr.handler]

/-- A name that is taken keeps its handler, which has to be the one registered now. -/
theorem method_iff_of_taken (hr : Reaches c r) {method name : String} {h' : H}
    (htaken : r.handler method name = some h') (h : H) :
    Reaches (c.registerMethodCallback method name h) (r.step (.method method name h)) ↔
      h' = h := by
  have hlookup := (hr.handler method name).trans htaken
  rw [Client.handlers_registerMethodCallback_of_taken hlookup]
  constructor
  · intro hstep
    have hnew := hstep.handler method name
    dsimp only [Registered.step] at hnew
    rw [hlookup, if_pos ⟨rfl, rfl⟩] at hnew
    exact Option.some.inj hnew
  · rintro rfl
    refine ⟨hr.consumers, hr.once, hr.names, fun m n => ?_⟩
    dsimp only [Registered.step]
    split_ifs with hmn
    · rw [hmn.1, hmn.2, hlookup]
    · exact hr.handler m n

omit [DecidableEq H] in
theorem of_registries (hr : Reaches c r) {d : Client H} (hd : d.registries = c.registries) :
    Reaches d r where
  consumers := (congrArg Prod.fst hd).trans hr.consumers
  once := hr.once
  names m := by
    rw [Client.handlers_of_registries hd]
    exact hr.names m
  handler m n := by rw [Client.handlers_of_registries hd, hr.handler]

end Reaches

theorem served_step_iff (s : Registry H) (e : Registration H) (hs : Served s) :
    Served (s.step e) ↔ Proper s e := by
  obtain ⟨c, hc, hr⟩ := hs
  have hserved {o : Option (Client H)} (ho : (s.step e).client = o) :
      Served (s.step e) ↔ ∃ d, o = some d ∧ Reaches d (s.registered.step e) := by
    rw [Served, ho]
    rfl
  cases e with
  | notify h =>
    rw [hserved (o := some (c.registerNotifyUpdate h)) (by simp [step, hc])]
    exact iff_of_true ⟨_, rfl, hr.notify h⟩ trivial
  | unregister h =>
    rw [hserved (o := c.unregisterNotifyUpdate h) (by simp [step, hc])]
    by_cases hmem : h ∈ s.registered.consumers
    · exact iff_of_true (hr.unregister hmem) hmem
    · refine iff_of_false ?_ hmem
      rintro ⟨d, hd, -⟩
      rw [hr.unregister_of_not_mem hmem] at hd
      cases hd
  | method method name h =>
    rw [hserved (o := some (c.registerMethodCallback method name h)) (by simp [step, hc])]
    simp only [Option.some.injEq, exists_eq_left']
    cases htaken : s.registered.handler method name with
    | none =>
      refine iff_of_true (hr.method_of_free htaken h) fun h' hh' => ?_
      rw [htaken] at hh'
      cases hh'
    | some h' =>
      rw [hr.method_iff_of_taken htaken h, Proper, htaken]
      simp
  | message method react =>
    rw [hserved (o := some (c.dispatch react method)) (by simp [step, hc])]
    exact iff_of_true ⟨_, rfl, hr.of_registries (Client.registries_dispatch react c method)⟩ trivial

omit [DecidableEq H] in
theorem served_init : Served ({} : Registry H) :=
  ⟨{}, rfl, rfl, List.nodup_nil, fun _ => List.Pairwise.nil, fun _ _ => rfl⟩

/-- A message runs the callees of its method, which are those registered as long as every
registration is proper. -/
theorem registries_iff (rs : List (Registration H)) :
    (Throughout step Served {} rs ↔ EachStep step Proper {} rs) ∧
    ∀ (c : Client H) (react : Reaction H) (method : String),
      c.dispatch react method = (c.callees method).foldl (Client.invoke react) c :=
  ⟨throughout_iff_eachStep served_step_iff served_init rs,
    fun c react method => Client.dispatch_eq react c method⟩

/-- A consumer that is not registered is unregistered, and a handler is registered again. -/
theorem registries_lost :
    ¬Throughout step (Served (H := Bool)) {} [.unregister true] ∧
    ¬Throughout step Served {} [.method "notify_gcode_response" "ConsolePanel" false,
      .method "notify_gcode_response" "ConsolePanel" true] := by
  constructor
  · rintro ⟨-, c, hc, -⟩
    cases hc
  · rintro ⟨-, -, c, hc, hr⟩
    have hlookup := hr.handler "notify_gcode_response" "ConsolePanel"
    cases hc
    revert hlookup
    decide

end Registry
end PowerScreen.WebSocket
