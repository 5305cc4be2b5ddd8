import PowerScreen.InitPanel.Coverage

/-! # The Home cards over reconnections

The cards are fed by the messages and the store is fed by them too, but they are emptied at
different moments. Once no first report is outstanding they agree again.
-/
namespace PowerScreen.InitPanel
open Library Library.Json Library.Run MainPanel
open PrintStatus (Arith arith?)

/-- The printer's side. The objects of a list have names that a pointer spells, a list is
refused only while there are no reports, and a first report carries every field of a card
that the store has already. -/
def Serves (l : Link) : Event → Prop
  | .reply .objectsList d => ∀ objs, getAt ["result", "objects"] d.json = some objs →
    (objs = .null ∧ l.store.printer = .null ∨ objs.isArray) ∧
      ∀ names, objs.elements.mapM str? = some names → ∀ n ∈ names, IsName n
  | .reply .subscribe d => ∃ st id t, d = Status.subscribeReply st id t ∧
    ∀ card ∈ l.cards, ∀ f ∈ ["temperature", "target"],
      l.store.field card.1.key f ≠ .null → st.field? card.1.key f ≠ none
  | _ => True

variable {A : Arith} {conf : Json} {df : String}

/-- Pointers spell the names of the objects, and the labels are those of the values. -/
structure Readable (l : Link) : Prop where
  names : ∀ names, l.store.objectNames = some names → ∀ n ∈ names, IsName n
  keys : ∀ card ∈ l.cards, IsName card.1.key
  written : ∀ card ∈ l.cards, card.2.Written

/-- Unless a first report is outstanding, the cards show what is in the store. -/
structure Current (A : Arith) (l : Link) : Prop extends Readable l where
  follows : Request.subscribe ∉ l.waiting → ∀ card ∈ l.cards, Follows A l.store card

theorem follows_of_null {s : State} (h : s.printer = .null) (card : TempCard × Display) :
    Follows A s card := by
  have hfield : ∀ f, s.field card.1.key f = .null := by
    intro f
    rw [State.field, h]
    rfl
  constructor
  all_goals
    intro n hn
    rw [hfield] at hn
    cases hn

theorem follows_congr {s s' : State} (h : s'.printer = s.printer) {card : TempCard × Display}
    (hc : Follows A s card) : Follows A s' card := by
  have hfield : ∀ f, s'.field card.1.key f = s.field card.1.key f := by
    intro f
    rw [State.field, State.field, h]
  constructor
  · intro n hn
    exact hc.value n (hfield _ ▸ hn)
  · intro n hn
    exact hc.target n (hfield _ ▸ hn)

namespace Current

theorem connected {l : Link} (h : Readable l) : Current A l.connected where
  names names hnames := by
    cases hnames
    exact fun n hn => absurd hn List.not_mem_nil
  keys := h.keys
  written := h.written
  follows _ card _ := follows_of_null rfl card

theorem objectsListed {l l' : Link} {d : Doc} (h : Readable l)
    (he : Serves l (.reply .objectsList d)) (hl : l.objectsListed conf df d = some l') :
    Current A l' := by
  obtain ⟨objs, hstore, hobjs, ⟨names, hnames, hshown⟩, hblank, hsub⟩ :=
    listed_of_objectsListed hl
  obtain ⟨hlist, hname⟩ := he objs hobjs
  have hall : ∀ n ∈ names, IsName n := by
    rcases State.objectNames_listed hstore hobjs (hlist.imp And.left id) with hsame | ⟨-, hold⟩
    · exact hname names (hsame ▸ hnames)
    · rcases hold names hnames with rfl | hnames
      · exact fun n hn => absurd hn List.not_mem_nil
      · exact h.names names hnames
  refine ⟨⟨fun names' hnames' => ?_, fun card hcard => ?_, fun card hcard => ?_⟩,
    fun hwait card _ => ?_⟩
  · cases hnames.symm.trans hnames'
    exact hall
  · refine hall _ (hshown _ ?_).1
    simp only [Link.shown, List.mem_append]
    exact Or.inl (Or.inl (Or.inl (List.mem_map.mpr ⟨card, hcard, rfl⟩)))
  · rw [hblank card hcard]
    exact Display.written_blank
  · by_cases hnull : objs = .null
    · have hprinter : l'.store.printer = .null := by
        rw [State.printer, State.get_setData_of_ne hstore (by decide)]
        refine (hlist.resolve_right fun harr => ?_).2
        rw [hnull] at harr
        cases harr
      exact follows_of_null hprinter card
    · rw [if_neg hnull] at hsub
      exact absurd hsub.2 hwait

/-- One message goes to the store and to every card. -/
theorem of_receive {l l' : Link} {r : Report} {read : String → String → Option Json}
    (h : Readable l) (hread : ∀ key, IsName key → Reads read r.status key)
    (hfeed : Request.subscribe ∉ l'.waiting → ∀ card ∈ l.cards, Follows A l.store card ∨
      ∀ f ∈ ["temperature", "target"],
        l.store.field card.1.key f ≠ .null → r.status.field? card.1.key f ≠ none)
    (hstore : l'.store = (l.store.receive r).getD l.store)
    (hcards : l.cards.mapM (updateCard A read) = some l'.cards) : Current A l' where
  names := by
    rw [hstore, State.objectNames_receive]
    exact h.names
  keys card' hcard' := by
    obtain ⟨card, hcard, hu⟩ := exists_of_mem_mapM hcards hcard'
    rw [key_updateCard hu]
    exact h.keys card hcard
  written card' hcard' := by
    obtain ⟨card, hcard, hu⟩ := exists_of_mem_mapM hcards hcard'
    exact written_updateCard (h.written card hcard) hu
  follows hwait card' hcard' := by
    obtain ⟨card, hcard, hu⟩ := exists_of_mem_mapM hcards hcard'
    rw [hstore]
    exact follows_update (hread _ (h.keys card hcard)) (hfeed hwait card hcard) hu

theorem of_subscriptionAnswered {l l' : Link} {st : Status} {id : ℕ} {t : ℚ} (h : Readable l)
    (he : ∀ card ∈ l.cards, ∀ f ∈ ["temperature", "target"],
      l.store.field card.1.key f ≠ .null → st.field? card.1.key f ≠ none)
    (hl : l.subscriptionAnswered A (st.subscribeReply id t) = some l') : Current A l' := by
  simp only [Link.subscriptionAnswered, Option.bind_eq_bind, Option.bind_eq_some_iff] at hl
  obtain ⟨store, hstore, lamps, -, cards, hcards, hl⟩ := hl
  cases hl
  have hreceive : l.store.receive (.subscribed st id t) = some store := hstore
  exact of_receive (r := .subscribed st id t) h
    (fun key hkey => reads_subscribeReply st id t hkey) (fun _ card hcard => Or.inr (he card hcard)) (by rw [hreceive]; rfl) hcards

theorem notified {l l' : Link} {st : Status} {t : ℚ} (h : Current A l)
    (hl : l.notified A st t = some l') : Current A l' := by
  simp only [Link.notified, Option.bind_eq_bind, Option.bind_eq_some_iff] at hl
  obtain ⟨store, hstore, lamps, -, cards, hcards, hl⟩ := hl
  cases hl
  have hreceive : l.store.receive (.update st t) = some store := hstore
  exact of_receive (r := .update st t) h.toReadable
    (fun key hkey => reads_notification st t hkey) (fun hwait card hcard => Or.inl (h.follows hwait card hcard)) (by rw [hreceive]; rfl) hcards

/-- Another answer neither fills the cards nor stores anything of the printer. -/
theorem stored {l l' : Link} {d : Doc} {r : Request} (h : Current A l)
    (hr : r ≠ .objectsList ∧ r ≠ .subscribe) (hl : l.answer A conf df d r = some l') :
    Current A l' := by
  obtain ⟨store, hstore, spoolman, rfl⟩ := stored_of_answer hr hl
  have hprinter : store.printer = l.store.printer := hstore "printer_state" (by simp)
  refine ⟨⟨?_, h.keys, h.written⟩, fun hwait card hcard =>
    follows_congr hprinter (h.follows hwait card hcard)⟩
  rw [State.objectNames_congr (hstore "printer_objs" (by simp))]
  exact h.names

theorem handle {l l' : Link} {e : Event} (h : Current A l) (he : Serves l e)
    (hl : l.handle A conf df e = some l') : Current A l' := by
  cases e with
  | opened =>
    cases hl
    exact connected (l := { l with waiting := [] }) ⟨h.names, h.keys, h.written⟩
  | klippyReady =>
    cases hl
    exact connected h.toReadable
  | klippyDisconnected | closed =>
    cases hl
    exact ⟨⟨h.names, h.keys, h.written⟩, h.follows⟩
  | update st t => exact h.notified hl
  | reply r d =>
    rw [Link.handle] at hl
    split_ifs at hl with hmem
    · have h' : Readable { l with waiting := l.waiting.erase r } := ⟨h.names, h.keys, h.written⟩
      by_cases hsub : r = .subscribe
      · subst hsub
        obtain ⟨st, id, t, rfl, hfull⟩ := he
        exact of_subscriptionAnswered h' hfull hl
      · by_cases hlist : r = .objectsList
        · subst hlist
          exact objectsListed h' he hl
        · refine stored ⟨h', fun hwait => h.follows fun hold => hwait ?_⟩ ⟨hlist, hsub⟩ hl
          exact (List.mem_erase_of_ne (Ne.symm hsub)).mpr hold
    · cases hl
      exact h

end Current

theorem current_start (s : State) : Current A (Link.start s) where
  names names hnames := by
    cases hnames
    exact fun n hn => absurd hn List.not_mem_nil
  keys card hcard := absurd hcard List.not_mem_nil
  written card hcard := absurd hcard List.not_mem_nil
  follows _ card hcard := absurd hcard List.not_mem_nil

variable (A conf df)

/-- The cards of the Home over any number of connections: when no first report is
outstanding, each shows what the store holds of its sensor. -/
theorem cards_follow (s : State) (es : List Event)
    (hes : EachStep (Link.step A conf df) (fun o e => ∀ l ∈ o, Serves l e)
      (some (Link.start s)) es) (l : Link)
    (h : run (Link.step A conf df) (some (Link.start s)) es = some l)
    (hwait : Request.subscribe ∉ l.waiting) :
    ∀ card ∈ l.cards, card.2.Written ∧ Follows A l.store card := by
  have hrun : ∀ l ∈ run (Link.step A conf df) (some (Link.start s)) es, Current A l := by
    refine run_of_eachStep (I := fun o => ∀ l ∈ o, Current A l) ?_ ?_ hes
    · intro o e ho he l' hl'
      obtain ⟨l, rfl, hl⟩ := Option.bind_eq_some_iff.mp hl'
      exact (ho l rfl).handle (he l rfl) hl
    · intro l hl
      cases hl
      exact current_start s
  have hcurrent := hrun l h
  exact fun card hcard => ⟨hcurrent.written card hcard, hcurrent.follows hwait card hcard⟩

/-- An extruder at a temperature. -/
def extruderAt (temperature : ℤ) : Status where
  objects := [("extruder", [("target", .num (.int 200)), ("temperature", .num (.int temperature))])]
  keys := List.pairwise_singleton _ _
  fields o ho := by
    rw [List.mem_singleton.mp ho, Json.sorted_obj_iff]
    exact ⟨Assoc.sorted_of_keys (show ["target", "temperature"].Pairwise (· < ·) by decide),
      by simp [Json.Sorted]⟩

/-- A connection that is followed by another one, up to a notification. -/
def reconnection : List Event :=
  [.opened, .klippyReady, .reply .objectsList extruderList,
    .reply .subscribe ((extruderAt 25).subscribeReply 3 0), .update (extruderAt 140) 1]

theorem cards_follow_extruder :
    ∃ l, run (Link.step PrintStatus.Job.exactArith (.obj []) "/")
        (some (Link.start ⟨[], by decide⟩)) reconnection = some l ∧
      l.cards.map (·.2) = [⟨140, 200, "140°", "/ 200°"⟩] ∧
      ∀ card ∈ l.cards, card.2.Written ∧ Follows PrintStatus.Job.exactArith l.store card := by
  have hsome : (run (Link.step PrintStatus.Job.exactArith (.obj []) "/")
      (some (Link.start ⟨[], by decide⟩)) reconnection).map
        (fun l => (decide (Request.subscribe ∈ l.waiting), l.cards.map (·.2))) =
      some (false, [⟨140, 200, "140°", "/ 200°"⟩]) := by decide +kernel
  obtain ⟨l, hl, hsome⟩ := Option.map_eq_some_iff.mp hsome
  obtain ⟨hwait, hcards⟩ := Prod.mk.inj hsome
  refine ⟨l, hl, hcards, cards_follow _ _ _ _ _ ?_ l hl (of_decide_eq_false hwait)⟩
  refine ⟨fun _ _ => trivial, fun _ _ => trivial, fun l hl objs hobjs => ?_, fun l hl => ?_,
    fun _ _ => trivial, trivial⟩
  · cases hobjs
    refine ⟨Or.inr rfl, fun names hnames => ?_⟩
    cases hnames
    decide
  · have hprinter : (Link.step PrintStatus.Job.exactArith (.obj []) "/"
        (run (Link.step PrintStatus.Job.exactArith (.obj []) "/")
          (some (Link.start ⟨[], by decide⟩)) [.opened, .klippyReady])
        (.reply .objectsList extruderList)).map (·.store.printer) = some .null := by
      decide +kernel
    obtain ⟨l', hl', hprinter⟩ := Option.map_eq_some_iff.mp hprinter
    cases hl.symm.trans hl'
    refine ⟨extruderAt 25, 3, 0, rfl, fun card _ f _ hstored => absurd ?_ hstored⟩
    rw [State.field, hprinter]
    rfl

end PowerScreen.InitPanel
