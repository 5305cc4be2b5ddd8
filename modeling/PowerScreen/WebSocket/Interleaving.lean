import PowerScreen.WebSocket.Calls

/-! # Calls from two threads

A call with a handler looks up and inserts it under the value of the counter, takes
its id from the counter, and transmits. In between other calls may do the same: the
handler then waits under an id that somebody else takes, or finds the key taken.
-/
namespace PowerScreen.WebSocket
open Library Library.Run

variable {H : Type*}

/-- How far a call is. -/
inductive Phase where
  /-- It has found its key taken, and sends nothing. -/
  | dropped
  | begun
  | taken (id : ℕ)
  | transmitted (id : ℕ)
deriving DecidableEq

/-- The id of the request, when `next` is the one to be taken. -/
def Phase.id? (next : ℕ) : Phase → Option ℕ
  | dropped => none
  | begun => some next
  | taken id | transmitted id => some id

/-- The client and all calls that have begun, by their numbers. -/
structure Session (H : Type*) where
  client : Client H := {}
  calls : List (Call H × Phase) := []

inductive Action (H : Type*) where
  | begin (call : Call H)
  | take (n : ℕ)
  | transmit (n : ℕ)
  /-- A message with this key: the handler in one of the tables has run and is erased. -/
  | answered (t : Table) (k : ℕ)

namespace Session

/-- The look-up and the insertion of an overload with a handler. -/
def begin (s : Session H) (call : Call H) : Session H :=
  let c := { s.client with calls := s.client.calls + 1 }
  match call.registers with
  | none => ⟨c, s.calls ++ [(call, .begun)]⟩
  | some (t, h) =>
    if (s.client.pending t (key s.client.id)).isNone then
      ⟨c.put t (key s.client.id) (some ⟨h, s.client.calls⟩), s.calls ++ [(call, .begun)]⟩
    else ⟨c, s.calls ++ [(call, .dropped)]⟩

/-- `id++` -/
def take (s : Session H) (n : ℕ) : Session H :=
  match s.calls[n]? with
  | some (call, .begun) =>
    ⟨{ s.client with id := (s.client.id + 1) % 2 ^ 64 },
      s.calls.set n (call, .taken s.client.id)⟩
  | _ => s

def transmit (s : Session H) (n : ℕ) : Session H :=
  match s.calls[n]? with
  | some (call, .taken id) =>
    ⟨{ s.client with sent := s.client.sent ++
        [⟨n, id, call.method, call.params?, call.registers.map Prod.snd⟩] },
      s.calls.set n (call, .transmitted id)⟩
  | _ => s

def answered (s : Session H) (t : Table) (k : ℕ) : Session H :=
  { s with client := s.client.put t k none }

def step (s : Session H) : Action H → Session H
  | .begin call => s.begin call
  | .take n => s.take n
  | .transmit n => s.transmit n
  | .answered t k => s.answered t k

/-- The three steps of a call, one right after the other, are the call. -/
theorem run_alone (s : Session H) (call : Call H) (h : s.client.calls = s.calls.length) :
    (run step s [.begin call, .take s.calls.length, .transmit s.calls.length]).client =
      s.client.sendJsonrpc call := by
  simp only [run_cons, run_nil, step]
  unfold begin Client.sendJsonrpc
  cases hr : call.registers with
  | none => simp [take, transmit, Client.transmit, hr, h]
  | some r =>
    dsimp only
    split_ifs
    · simp [take, transmit, Client.transmit, hr, h, Client.put]
    · simp [take, transmit]

/-- The id of a call's request: the one that it has taken, or the next one. -/
def idOf (s : Session H) (n : ℕ) : Option ℕ :=
  s.calls[n]?.bind fun c => c.2.id? s.client.id

/-- The numbers of the calls are their positions, so an entry names its own call. -/
def Numbered (s : Session H) : Prop := s.client.calls = s.calls.length

/-- Every waiting handler is under the id of the request of its own call, no two
requests have one id, and no call is dropped. -/
structure Paired (s : Session H) : Prop where
  own : ∀ t k e, s.client.pending t k = some e → ∃ id, s.idOf e.call = some id ∧ key id = k
  unique : (s.client.sent.map Request.id).Nodup
  kept : ∀ (n : ℕ) call, s.calls[n]? ≠ some (call, Phase.dropped)

/-- The handler of call `n` waits. -/
def Waits (s : Session H) (t : Table) (n : ℕ) : Prop :=
  ∃ k e, s.client.pending t k = some e ∧ e.call = n

/-- Call `n` has a place in the table and no id. -/
def Between (s : Session H) (t : Table) (n : ℕ) : Prop :=
  (∃ call, s.calls[n]? = some (call, .begun)) ∧ s.Waits t n

/-- Calls keep out of each other's way: none is begun with a handler, and none takes
its id, between the insertion of another and the taking of its id; and the counter
does not come around to an id whose handler still waits or that was sent before. -/
def Apart (s : Session H) : Action H → Prop
  | .begin call => ∀ t h, call.registers = some (t, h) →
      (∀ n, ¬ s.Between t n) ∧
      ∀ n call' id, s.Waits t n →
        s.calls[n]? = some (call', .taken id) ∨ s.calls[n]? = some (call', .transmitted id) →
          key id ≠ key s.client.id
  | .take n => (∃ call, s.calls[n]? = some (call, .begun)) → ∀ t m, m ≠ n → ¬ s.Between t m
  | .transmit n => ∀ call id, s.calls[n]? = some (call, .taken id) →
      ∀ r ∈ s.client.sent, r.id ≠ id
  | .answered _ _ => True

theorem idOf_eq_some {s : Session H} {n id : ℕ} (h : s.idOf n = some id) : ∃ call phase,
    s.calls[n]? = some (call, phase) ∧ phase.id? s.client.id = some id := by
  obtain ⟨⟨call, phase⟩, hcall, hid⟩ := Option.bind_eq_some_iff.mp h
  exact ⟨call, phase, hcall, hid⟩

theorem idOf_of_call {s : Session H} {n : ℕ} {call : Call H} {phase : Phase}
    (h : s.calls[n]? = some (call, phase)) : s.idOf n = phase.id? s.client.id := by
  rw [idOf, h, Option.bind_some]

/-- Taking an id changes the key that the next one has. -/
theorem key_next_ne (id : ℕ) : key ((id + 1) % 2 ^ 64) ≠ key id := by
  unfold key
  omega

/-- A call finds its key free exactly when nobody is in the way. -/
theorem Paired.free_iff {s : Session H} (h : s.Paired) (t : Table) :
    s.client.pending t (key s.client.id) = none ↔
      (∀ n, ¬ s.Between t n) ∧ ∀ n call id, s.Waits t n →
        s.calls[n]? = some (call, .taken id) ∨ s.calls[n]? = some (call, .transmitted id) →
          key id ≠ key s.client.id := by
  constructor
  · intro hfree
    have hwaits : ∀ n id, s.Waits t n → s.idOf n = some id → key id ≠ key s.client.id := by
      rintro n id ⟨k, e, hp, rfl⟩ hid hkey
      obtain ⟨id', hid', hk⟩ := h.own t k e hp
      rw [hid, Option.some.injEq] at hid'
      rw [← hk, ← hid', hkey, hfree] at hp
      cases hp
    refine ⟨?_, fun n call id hw hid => hwaits n id hw ?_⟩
    · rintro n ⟨⟨call, hcall⟩, hw⟩
      exact hwaits n s.client.id hw (idOf_of_call hcall) rfl
    · rcases hid with hcall | hcall <;> exact idOf_of_call hcall
  · rintro ⟨hbetween, hothers⟩
    by_contra hne
    obtain ⟨e, he⟩ := Option.ne_none_iff_exists'.mp hne
    have hw : s.Waits t e.call := ⟨_, e, he, rfl⟩
    obtain ⟨id, hid, hk⟩ := h.own t _ e he
    obtain ⟨call, phase, hcall, hphase⟩ := idOf_eq_some hid
    cases phase with
    | dropped => cases hphase
    | begun => exact hbetween e.call ⟨⟨call, hcall⟩, hw⟩
    | taken id' =>
      rw [Phase.id?, Option.some.injEq] at hphase
      exact hothers e.call call id' hw (Or.inl hcall) (hphase ▸ hk)
    | transmitted id' =>
      rw [Phase.id?, Option.some.injEq] at hphase
      exact hothers e.call call id' hw (Or.inr hcall) (hphase ▸ hk)

theorem numbered_step (s : Session H) (a : Action H) (h : s.Numbered) : (s.step a).Numbered := by
  cases a with
  | begin call =>
    have hnext : s.client.calls + 1 = (s.calls ++ [(call, Phase.begun)]).length := by
      rw [h, List.length_append, List.length_singleton]
    rw [step, begin]
    split
    · exact hnext
    · split_ifs
      · exact hnext
      · simpa [Numbered] using hnext
  | take n =>
    rw [step, take]
    split
    · exact h.trans List.length_set.symm
    · exact h
  | transmit n =>
    rw [step, transmit]
    split
    · exact h.trans List.length_set.symm
    · exact h
  | answered t k => exact h

/-- One more call, with or without an entry of its own. -/
theorem Paired.begin {s : Session H} (h : s.Paired) (hn : s.Numbered) (call : Call H)
    {c : Client H} (hid : c.id = s.client.id) (hsent : c.sent = s.client.sent)
    (hpending : ∀ t k e, c.pending t k = some e → s.client.pending t k = some e ∨
      k = key s.client.id ∧ e.call = s.client.calls) :
    Paired ⟨c, s.calls ++ [(call, .begun)]⟩ := by
  refine ⟨fun t k e hp => ?_, ?_, fun n call' hdropped => ?_⟩
  · rcases hpending t k e hp with hp | ⟨hk, he⟩
    · obtain ⟨id, hidOf, hkey⟩ := h.own t k e hp
      obtain ⟨call', phase, hcall, hphase⟩ := idOf_eq_some hidOf
      have hold : (s.calls ++ [(call, Phase.begun)])[e.call]? = some (call', phase) := by
        rw [List.getElem?_append_left (List.getElem?_eq_some_iff.mp hcall).1, hcall]
      exact ⟨id, by rw [idOf_of_call hold, hid, hphase], hkey⟩
    · have hnew : (s.calls ++ [(call, Phase.begun)])[e.call]? = some (call, .begun) := by
        rw [he, hn, List.getElem?_concat_length]
      exact ⟨c.id, idOf_of_call (s := ⟨c, _⟩) hnew, by rw [hid, hk]⟩
  · rw [hsent]
    exact h.unique
  · rw [List.getElem?_append] at hdropped
    split_ifs at hdropped with hlt
    · exact h.kept n call' hdropped
    · rw [List.getElem?_singleton] at hdropped
      split_ifs at hdropped
      cases hdropped

theorem paired_begin_iff {s : Session H} (h : s.Paired) (hn : s.Numbered) (call : Call H) :
    (s.begin call).Paired ↔ s.Apart (.begin call) := by
  unfold begin
  cases hr : call.registers with
  | none =>
    refine iff_of_true (h.begin hn call rfl rfl fun t k e hp => Or.inl hp) ?_
    intro t f hreg
    rw [hr] at hreg
    cases hreg
  | some r =>
    obtain ⟨t, f⟩ := r
    have hapart : s.Apart (.begin call) ↔ s.client.pending t (key s.client.id) = none := by
      rw [h.free_iff]
      constructor
      · exact fun ha => ha t f hr
      · intro ha t' f' hreg
        rw [hr, Option.some.injEq, Prod.mk.injEq] at hreg
        rw [← hreg.1]
        exact ha
    rw [hapart]
    dsimp only
    split_ifs with hfree
    · refine iff_of_true (h.begin hn call rfl rfl fun t' k e hp => ?_)
        (Option.isNone_iff_eq_none.mp hfree)
      rw [Client.pending_put] at hp
      split_ifs at hp with htk
      · exact Or.inr ⟨htk.2, by rw [← Option.some.inj hp]⟩
      · exact Or.inl hp
    · refine iff_of_false (fun hp => ?_) (mt Option.isNone_iff_eq_none.mpr hfree)
      exact hp.kept s.calls.length call List.getElem?_concat_length

theorem calls_set_self {s : Session H} {n : ℕ} {c : Call H × Phase} (h : s.calls[n]? = some c)
    (d : Call H × Phase) : (s.calls.set n d)[n]? = some d :=
  List.getElem?_set_self (List.getElem?_eq_some_iff.mp h).1

/-- A call that moves on keeps its own id, and the others keep theirs unless the
counter moves while they have none. -/
theorem idOf_set {s : Session H} {n : ℕ} {call : Call H} {phase : Phase}
    (hcall : s.calls[n]? = some (call, phase)) (c : Client H) (phase' : Phase)
    (hself : phase'.id? c.id = phase.id? s.client.id) {m : ℕ}
    (hothers : m ≠ n → ∀ call', s.calls[m]? = some (call', .begun) → c.id = s.client.id)
    {id : ℕ} (hid : s.idOf m = some id) :
    idOf ⟨c, s.calls.set n (call, phase')⟩ m = some id := by
  by_cases hne : m = n
  · subst hne
    rw [idOf_of_call hcall] at hid
    rw [idOf_of_call (s := ⟨c, _⟩) (calls_set_self hcall _), hself, hid]
  · obtain ⟨call', phase', hcall', hphase'⟩ := idOf_eq_some hid
    rw [idOf_of_call (s := ⟨c, _⟩) ((List.getElem?_set_ne (Ne.symm hne)).trans hcall')]
    cases phase' with
    | begun =>
      rw [hothers hne call' hcall']
      exact hphase'
    | dropped | taken _ | transmitted _ => exact hphase'

/-- A request that is out has the id of its call. -/
def Recorded (s : Session H) : Prop :=
  ∀ r ∈ s.client.sent, ∃ call, s.calls[r.call]? = some (call, .transmitted r.id)

theorem Recorded.append {s : Session H} (h : s.Recorded) {c : Client H}
    (hsent : c.sent = s.client.sent) (x : Call H × Phase) : Recorded ⟨c, s.calls ++ [x]⟩ := by
  intro r hr
  rw [hsent] at hr
  obtain ⟨call, hcall⟩ := h r hr
  have hold : (s.calls ++ [x])[r.call]? = s.calls[r.call]? :=
    List.getElem?_append_left (List.getElem?_eq_some_iff.mp hcall).1
  exact ⟨call, hold.trans hcall⟩

theorem Recorded.set {s : Session H} (h : s.Recorded) {n : ℕ} {call : Call H} {phase : Phase}
    (hcall : s.calls[n]? = some (call, phase)) (hphase : ∀ id, phase ≠ .transmitted id)
    (x : Call H × Phase) : ∀ r ∈ s.client.sent,
      ∃ call', (s.calls.set n x)[r.call]? = some (call', .transmitted r.id) := by
  intro r hr
  obtain ⟨call', hr'⟩ := h r hr
  have hne : n ≠ r.call := by
    rintro rfl
    rw [hcall, Option.some.injEq, Prod.mk.injEq] at hr'
    exact hphase r.id hr'.2
  exact ⟨call', (List.getElem?_set_ne hne).trans hr'⟩

theorem recorded_step (s : Session H) (a : Action H) (h : s.Recorded) : (s.step a).Recorded := by
  cases a with
  | begin call =>
    rw [step, begin]
    split
    · exact h.append (by rfl) _
    · split_ifs
      · exact h.append (by rfl) _
      · exact h.append (by rfl) _
  | take n =>
    rw [step, take]
    split
    · rename_i call hcall
      exact h.set hcall nofun _
    · exact h
  | transmit n =>
    rw [step, transmit]
    split
    · rename_i call id hcall
      intro r hr
      rcases List.mem_append.mp hr with hr | hr
      · exact h.set hcall nofun _ r hr
      · rw [List.mem_singleton.mp hr]
        exact ⟨call, calls_set_self hcall _⟩
    · exact h
  | answered t k => exact h

/-- In every state that a run reaches. -/
theorem idOf_sent (as : List (Action H)) {r : Request H}
    (hr : r ∈ (run step ({} : Session H) as).client.sent) :
    (run step ({} : Session H) as).idOf r.call = some r.id := by
  have hrecorded : (run step ({} : Session H) as).Recorded :=
    run_of_step recorded_step (fun _ hr => absurd hr List.not_mem_nil) as
  obtain ⟨call, hcall⟩ := hrecorded r hr
  exact idOf_of_call hcall

theorem Paired.kept_set {s : Session H} (h : s.Paired) (n : ℕ) {c : Call H} {phase : Phase}
    (hphase : phase ≠ .dropped) (m : ℕ) (call : Call H) :
    (s.calls.set n (c, phase))[m]? ≠ some (call, Phase.dropped) := by
  rw [List.getElem?_set]
  split_ifs
  · intro heq
    injection heq with heq
    exact hphase (Prod.mk.inj heq).2
  · exact fun heq => by cases heq
  · exact h.kept m call

theorem paired_take_iff {s : Session H} (h : s.Paired) (n : ℕ) :
    (s.take n).Paired ↔ s.Apart (.take n) := by
  unfold take
  split
  case h_2 hother =>
    refine iff_of_true h ?_
    rintro ⟨call, hcall⟩
    exact absurd hcall (hother call)
  case h_1 call hcall =>
    constructor
    · rintro hp - t m hm ⟨⟨call', hcall'⟩, k, e, hpending, rfl⟩
      obtain ⟨id, hid, hk⟩ := h.own t k e hpending
      obtain ⟨id', hid', hk'⟩ := hp.own t k e hpending
      have hcall'' := (List.getElem?_set_ne (l := s.calls) (a := (call, .taken s.client.id))
        (Ne.symm hm)).trans hcall'
      rw [idOf_of_call hcall', Phase.id?, Option.some.injEq] at hid
      rw [idOf_of_call (s := ⟨_, _⟩) hcall'', Phase.id?, Option.some.injEq] at hid'
      subst hid' hk hid
      exact key_next_ne s.client.id hk'
    · intro ha
      refine ⟨fun t k e hpending => ?_, h.unique, h.kept_set n nofun⟩
      obtain ⟨id, hid, hk⟩ := h.own t k e hpending
      refine ⟨id, idOf_set hcall _ _ (by rfl) (fun hne call' hcall' => ?_) hid, hk⟩
      exact absurd ⟨⟨call', hcall'⟩, k, e, hpending, rfl⟩ (ha ⟨call, hcall⟩ t _ hne)

theorem paired_transmit_iff {s : Session H} (h : s.Paired) (n : ℕ) :
    (s.transmit n).Paired ↔ s.Apart (.transmit n) := by
  unfold transmit
  split
  case h_2 hother =>
    refine iff_of_true h fun call id hcall => ?_
    exact absurd hcall (hother call id)
  case h_1 call id hcall =>
    have happ (r : Request H) : ((s.client.sent ++ [r]).map Request.id).Nodup ↔
        ∀ r' ∈ s.client.sent, r'.id ≠ r.id := by
      rw [List.map_append, List.map_singleton, ← List.concat_eq_append, List.nodup_concat]
      simp only [h.unique, and_true, List.mem_map, not_exists, not_and]
    constructor
    · intro hp call' id' hcall'
      rw [hcall, Option.some.injEq, Prod.mk.injEq, Phase.taken.injEq] at hcall'
      rw [← hcall'.2]
      exact (happ _).mp hp.unique
    · intro ha
      refine ⟨fun t k e hpending => ?_, (happ _).mpr (ha call id hcall), h.kept_set n nofun⟩
      obtain ⟨id', hid, hk⟩ := h.own t k e hpending
      exact ⟨id', idOf_set hcall _ _ (by rfl) (fun _ _ _ => by rfl) hid, hk⟩

/-- An entry that is erased is missed by nobody. -/
theorem Paired.answered {s : Session H} (h : s.Paired) (t : Table) (k : ℕ) :
    (s.answered t k).Paired := by
  refine ⟨fun t' k' e hp => ?_, h.unique, h.kept⟩
  rw [Session.answered, Client.pending_put] at hp
  split_ifs at hp
  exact h.own t' k' e hp

theorem paired_step_iff {s : Session H} (h : s.Paired) (hn : s.Numbered) (a : Action H) :
    (s.step a).Paired ↔ s.Apart a := by
  cases a with
  | begin call => exact paired_begin_iff h hn call
  | take n => exact paired_take_iff h n
  | transmit n => exact paired_transmit_iff h n
  | answered t k => exact iff_of_true (h.answered t k) trivial

theorem paired_initially : ({} : Session H).Paired where
  own t _ _ hp := by cases t <;> cases hp
  unique := List.nodup_nil
  kept _ _ hn := by cases hn

/-- Handlers and requests belong together in every state that a run reaches exactly
when its calls stay apart. -/
theorem paired_throughout_iff (as : List (Action H)) :
    Throughout step Paired ({} : Session H) as ↔ EachStep step Apart {} as :=
  throughout_iff_eachStep_of (P := Paired) (B := fun s _ => s.Numbered)
    (fun _ a hn h => paired_step_iff h hn a) paired_initially
    (eachStep_of_invariant numbered_step (by rfl) as)

/-- The panel asks for its objects, and before it has its id the user interface
sends a command: the handler waits under the id of that command. -/
theorem overtaken_call_mispaired : ∃ a b : Call Unit, ¬ Throughout step Paired ({} : Session Unit)
    [.begin a, .begin b, .take 1, .transmit 1, .take 0, .transmit 0] := by
  refine ⟨.cb "printer.objects.list" (), .params "printer.gcode.script" (.obj []), ?_⟩
  intro h
  have hlast := throughout_iff_prefix.mp h _ List.prefix_rfl
  obtain ⟨id, hid, hk⟩ := hlast.own .callbacks 0 ⟨(), 0⟩ rfl
  cases hid
  exact absurd hk (by decide)

end Session
end PowerScreen.WebSocket
