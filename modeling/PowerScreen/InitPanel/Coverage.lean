import PowerScreen.InitPanel.Session
import PowerScreen.Library.JsonEdits

/-! # Everything on display is reported

What is on display comes from an object list, and the subscription is made from the same
list. The two stay together over answers that come late, twice or not at all.
-/
namespace PowerScreen.State
open Library Library.Json

/-- What storing an answer does to the entries of the store. -/
theorem setData_eq_some {s s' : State} {key : String} {d : Doc} {path : List String}
    (h : s.setData key d path = some s') : ∃ patch, getAt path d.json = some patch ∧
      ∀ k, s'.data.get k = if k = key ∧ patch ≠ .null then mergePatch (s.data.get key) patch
        else s.data.get k := by
  unfold setData at h
  split at h
  · cases h
  · rename_i patch hpatch
    cases h
    refine ⟨patch, hpatch, fun k => ?_⟩
    by_cases hnull : patch = .null
    · simp [hnull]
    · rw [if_neg hnull]
      simp only [hnull, ne_eq, not_false_eq_true, and_true]
      exact get_insert k key _ (.obj s.entries)

theorem get_setData_of_ne {s s' : State} {key k : String} {d : Doc} {path : List String}
    (h : s.setData key d path = some s') (hk : k ≠ key) : s'.data.get k = s.data.get k := by
  obtain ⟨patch, -, hget⟩ := setData_eq_some h
  rw [hget, if_neg fun hand => hk hand.1]

theorem objectNames_eq (s : State) : s.objectNames =
    (getAt ["objects"] (s.data.get "printer_objs")).bind fun objects =>
      objects.elements.mapM str? := rfl

theorem objectNames_congr {s s' : State}
    (h : s'.data.get "printer_objs" = s.data.get "printer_objs") :
    s'.objectNames = s.objectNames := by rw [objectNames_eq, objectNames_eq, h]

theorem objectNames_receive (s : State) (r : Report) :
    ((s.receive r).getD s).objectNames = s.objectNames := by
  rw [s.receive_eq r, Option.getD_some]
  exact objectNames_congr (get_insert "printer_objs" "printer_state" _ (.obj s.entries))

/-- An entry that a patch has, and one that it leaves out. -/
theorem getAt_mergePatch_entry {old patch v : Json} {k : String} (hk : IsKey k)
    (hs : patch.Sorted) (hp : patch ≠ .null) (hv : getAt [k] patch = some v)
    (hl : v = .null ∨ v.isArray) :
    getAt [k] (mergePatch old patch) = some v ∨
      v = .null ∧ getAt [k] (mergePatch old patch) = some (old.get k) := by
  cases patch with
  | null => exact absurd rfl hp
  | obj ms =>
    have hmerged := get?_mergePatch (Json.sorted_obj_iff.mp hs).1 old k
    have hread : getAt [k] (mergePatch old (.obj ms)) =
        some ((mergePatch old (.obj ms)).get k) := by
      have hrecord : (mergePatch old (.obj ms)).IsRecord := by
        rw [mergePatch]
        exact isRecord_obj _
      exact hrecord.getAt hk []
    have hlook : (ms.lookup k).getD .null = v := Option.some.inj hv
    rw [hread, Json.get, hmerged]
    cases hms : ms.lookup k with
    | none =>
      rw [hms] at hlook
      exact Or.inr ⟨hlook.symm, rfl⟩
    | some w =>
      rw [hms, Option.getD_some] at hlook
      left
      dsimp only
      split_ifs with hnull
      · rw [← hlook, hnull]
        rfl
      · have hscalar : w.isObject = false := by
          have harr := hl.resolve_left (hlook ▸ hnull)
          rw [← hlook] at harr
          cases w <;> first | rfl | cases harr
        rw [mergePatch_of_not_object _ hscalar, hlook]
        rfl
  | arr xs =>
    have hindex : arrayIndex xs.length k = none := by
      rw [arrayIndex, if_neg hk.2, hk.1]
      simp
    rw [getAt_cons_arr, hindex] at hv
    cases hv
  | _ => cases hv

/-- The names in the store after an object list: those of the list, and where the answer has
none they are the old ones or there are none. -/
theorem objectNames_listed {s s' : State} {d : Doc} {objs : Json}
    (hs : s.setData "printer_objs" d ["result"] = some s')
    (ho : getAt ["result", "objects"] d.json = some objs) (hl : objs = .null ∨ objs.isArray) :
    s'.objectNames = objs.elements.mapM str? ∨
      objs = .null ∧ ∀ names, s'.objectNames = some names →
        names = [] ∨ s.objectNames = some names := by
  obtain ⟨patch, hpatch, hget⟩ := setData_eq_some hs
  have hobjs : getAt ["objects"] patch = some objs := by
    rw [show ["result", "objects"] = ["result"] ++ ["objects"] from rfl, getAt_append, hpatch,
      Option.bind_some] at ho
    exact ho
  have hself := hget "printer_objs"
  by_cases hnull : patch = .null
  · rw [if_neg fun hand => hand.2 hnull] at hself
    rw [hnull] at hobjs
    exact Or.inr ⟨getAt_null hobjs, fun names hnames => Or.inr (objectNames_congr hself ▸ hnames)⟩
  · rw [if_pos ⟨rfl, hnull⟩] at hself
    have hnames : s'.objectNames = (getAt ["objects"]
        (mergePatch (s.data.get "printer_objs") patch)).bind fun objects =>
          objects.elements.mapM str? := by rw [objectNames_eq, hself]
    rcases getAt_mergePatch_entry (by decide) (d.sorted.getAt hpatch) hnull hobjs hl with h | ⟨h, hold⟩
    · left
      rw [hnames, h]
      rfl
    · refine Or.inr ⟨h, fun names hsome => ?_⟩
      rw [hnames, hold] at hsome
      by_cases hrecord : (s.data.get "printer_objs").IsRecord
      · right
        rw [objectNames_eq, hrecord.getAt (by decide) []]
        exact hsome
      · left
        have hnone : (s.data.get "printer_objs").get "objects" = .null := by
          rw [Json.get, get?]
          cases hj : s.data.get "printer_objs" with
          | obj ns => exact absurd (hj ▸ isRecord_obj ns) hrecord
          | _ => rfl
        rw [hnone] at hsome
        cases hsome
        rfl

theorem shows_of_displays {cls dflt : String → Bool} {s : State} {conf : Json} {path : String}
    {result : Option (List (String × Json))} {display : List (String × Json)}
    (h : Displays cls dflt s conf path result) (hr : result = some display) :
    ∃ names user, s.objectNames = some names ∧ Shows cls dflt names user display := by
  unfold Displays at h
  split at h
  · rename_i names user hnames _
    obtain ⟨display', hdisplay, hshows⟩ := h
    cases hr.symm.trans hdisplay
    exact ⟨names, user, hnames, hshows⟩
  · rw [hr] at h
    cases h

end PowerScreen.State

namespace PowerScreen.InitPanel
open Library Library.Json Library.Run MainPanel
open PrintStatus (Arith)

/-- No name of a class of objects is that of a macro. -/
theorem not_macro_of_prefix {p n : String} (h : State.hasPrefix p n)
    (hp : ¬ p.toList <+: "gcode_macro ".toList ∧ ¬ "gcode_macro ".toList <+: p.toList) :
    State.hasPrefix "gcode_macro " n = false := by
  refine decide_eq_false fun hmacro => ?_
  rcases List.prefix_or_prefix_of_prefix (of_decide_eq_true h) hmacro with h | h
  · exact hp.1 h
  · exact hp.2 h

theorem not_macro_of_isExtruder {n : String} (h : State.isExtruder n) :
    State.hasPrefix "gcode_macro " n = false :=
  not_macro_of_prefix (Bool.and_eq_true_iff.mp h).1 (by decide)

theorem not_macro_of_isHeater {n : String} (h : State.isHeater n) :
    State.hasPrefix "gcode_macro " n = false := by
  rw [State.isHeater, Bool.or_eq_true, decide_eq_true_eq] at h
  rcases h with rfl | h
  · decide
  · exact not_macro_of_prefix h (by decide)

theorem not_macro_of_isSensor {n : String} (h : State.isSensor n) :
    State.hasPrefix "gcode_macro " n = false := by
  rw [State.isSensor, Bool.or_eq_true] at h
  rcases h with h | h <;> exact not_macro_of_prefix h (by decide)

theorem not_macro_of_isOutputPin {n : String} (h : State.isOutputPin n) :
    State.hasPrefix "gcode_macro " n = false := not_macro_of_prefix h (by decide)

theorem not_macro_of_isFan {n : String} (h : State.isFan n) :
    State.hasPrefix "gcode_macro " n = false := by
  simp only [State.isFan, Bool.or_eq_true, decide_eq_true_eq] at h
  rcases h with ((rfl | h) | h) | h
  · decide
  all_goals exact not_macro_of_prefix h (by decide)

theorem not_macro_of_isLed {n : String} (h : State.isLed n) :
    State.hasPrefix "gcode_macro " n = false := not_macro_of_prefix h (by decide)

theorem mem_subscription {names : List String} {n : String} (h : n ∈ names)
    (hn : State.hasPrefix "gcode_macro " n = false) : n ∈ (subscription names).map Prod.fst := by
  rw [← Assoc.isSome_lookup_iff, subscription, Assoc.lookup_insertAll, List.lookup_nil,
    Option.or_none, Assoc.isSome_lookup_iff, List.map_reverse, List.mem_reverse, List.map_append,
    List.map_map]
  refine List.mem_append_left _ (List.mem_map.mpr ⟨n, List.mem_filter.mpr ⟨h, ?_⟩, rfl⟩)
  rw [hn]
  rfl

section Created

variable {A : Arith} {conf : Json} {df : String} {s : State} {names : List String}

theorem mem_names_of_createSensors {sensors : List (String × Json)} {cards : List TempCard}
    (hs : s.getDisplaySensors conf df = some sensors) (hc : createSensors sensors = some cards)
    (hn : s.objectNames = some names) {c : TempCard} (h : c ∈ cards) :
    c.key ∈ names ∧ State.hasPrefix "gcode_macro " c.key = false := by
  obtain ⟨names', user, hnames, hshows⟩ :=
    State.shows_of_displays (State.displays_sensors s conf df) hs
  cases hn.symm.trans hnames
  obtain ⟨e, he, hcard⟩ := exists_of_mem_mapM hc h
  obtain ⟨e', he', hplace⟩ := List.mem_filterMap.mp he
  obtain ⟨slot, -, rfl⟩ := Option.map_eq_some_iff.mp hplace
  rw [(createCard_eq_some hcard).1]
  obtain ⟨hmem, hcls⟩ := hshows.exist e' he'
  refine ⟨hmem, ?_⟩
  rw [State.sensorClass, Bool.or_eq_true, Bool.or_eq_true] at hcls
  rcases hcls with (hcls | hcls) | hcls
  · exact not_macro_of_isExtruder hcls
  · exact not_macro_of_isHeater hcls
  · exact not_macro_of_isSensor hcls

theorem mem_names_of_createFans {f : List (String × Json)} {fans : List (String × String)}
    (hs : s.getDisplayFans conf df = some f) (hc : createFans f = some fans)
    (hn : s.objectNames = some names) {k : String × String} (h : k ∈ fans) :
    k.1 ∈ names ∧ State.hasPrefix "gcode_macro " k.1 = false := by
  obtain ⟨names', user, hnames, hshows⟩ :=
    State.shows_of_displays (State.displays_fans s conf df) hs
  cases hn.symm.trans hnames
  have hkey : ∃ e ∈ f, e.1 = k.1 := by
    obtain ⟨named, hnamed, rfl⟩ := Option.map_eq_some_iff.mp hc
    rcases List.mem_append.mp h with h | h
    · have hsome := (List.mem_filter.mp h).2
      obtain ⟨e, he, hfst⟩ := List.mem_map.mp (Assoc.isSome_lookup_iff.mp hsome)
      exact ⟨e, he, hfst⟩
    · obtain ⟨e, he, hname⟩ := exists_of_mem_mapM hnamed h
      obtain ⟨name, -, rfl⟩ := Option.map_eq_some_iff.mp hname
      exact ⟨e, (List.mem_filter.mp he).1, rfl⟩
  obtain ⟨e, he, hfst⟩ := hkey
  obtain ⟨hmem, hcls⟩ := hshows.exist e he
  rw [← hfst]
  refine ⟨hmem, ?_⟩
  rw [State.fanClass, Bool.or_eq_true] at hcls
  rcases hcls with hcls | hcls
  · exact not_macro_of_isFan hcls
  · exact not_macro_of_isOutputPin hcls

theorem mem_names_of_createTargets {sensors : List String} (hs : s.getSensors = some sensors)
    (hn : s.objectNames = some names) {k : String} (h : k ∈ createTargets sensors) :
    k ∈ names ∧ State.hasPrefix "gcode_macro " k = false := by
  rw [State.getSensors, hn] at hs
  cases hs
  have hmem := of_decide_eq_true (List.mem_filter.mp h).2
  obtain ⟨hmem, hcls⟩ := List.mem_filter.mp hmem
  exact ⟨hmem, not_macro_of_isSensor hcls⟩

theorem mem_names_of_init {leds : List (String × Json)} (p : Leds.Panel)
    (hs : s.getDisplayLeds conf df = some leds) (hn : s.objectNames = some names)
    {led : String × Bool} (h : led ∈ (p.init leds).leds) :
    led.1 ∈ names ∧ State.hasPrefix "gcode_macro " led.1 = false := by
  obtain ⟨names', user, hnames, hshows⟩ :=
    State.shows_of_displays (State.displays_leds s conf df) hs
  cases hn.symm.trans hnames
  obtain ⟨e, he, hfst⟩ := List.mem_map.mp (Leds.Lamps.mem_leds_init h).2
  obtain ⟨hmem, hcls⟩ := hshows.exist e he
  rw [← hfst]
  refine ⟨hmem, ?_⟩
  rw [State.ledClass, Bool.or_eq_true] at hcls
  rcases hcls with hcls | hcls
  · exact not_macro_of_isLed hcls
  · exact not_macro_of_isOutputPin hcls

end Created

/-- What the answer with the printer's objects leads to. -/
structure Listed (l : Link) (d : Doc) (objs : Json) (l' : Link) : Prop where
  store : l.store.setData "printer_objs" d ["result"] = some l'.store
  found : getAt ["result", "objects"] d.json = some objs
  shown : ∃ names, l'.store.objectNames = some names ∧
    ∀ o ∈ l'.shown, o ∈ names ∧ State.hasPrefix "gcode_macro " o = false
  blank : ∀ card ∈ l'.cards, card.2 = {}
  subscribed : if objs = .null then l'.subscribed = l.subscribed ∧
      (Request.subscribe ∈ l'.waiting ↔ Request.subscribe ∈ l.waiting)
    else (∃ names, objs.elements.mapM str? = some names ∧ l'.subscribed = subscription names) ∧
      Request.subscribe ∈ l'.waiting

variable {A : Arith} {conf : Json} {df : String}

theorem listed_of_objectsListed {l l' : Link} {d : Doc}
    (h : l.objectsListed conf df d = some l') : ∃ objs, Listed l d objs l' := by
  simp only [Link.objectsListed, Option.bind_eq_bind, Option.bind_eq_some_iff] at h
  obtain ⟨store, hstore, sensors, hsensors, cards, hcards, f, hf, fans, hfans, ts, hts, leds, hleds,
    objs, hobjs, h⟩ := h
  obtain ⟨names, -, hnames, -⟩ :=
    State.shows_of_displays (State.displays_sensors store conf df) hsensors
  have hshown : ∀ o, o ∈ cards.map TempCard.key ++ fans.map Prod.fst ++ createTargets ts ++
      (l.lamps.init leds).leds.map Prod.fst →
        o ∈ names ∧ State.hasPrefix "gcode_macro " o = false := by
    intro o ho
    simp only [List.mem_append, List.mem_map] at ho
    rcases ho with ((⟨c, hc, rfl⟩ | ⟨k, hk, rfl⟩) | ht) | ⟨led, hled, rfl⟩
    · exact mem_names_of_createSensors hsensors hcards hnames hc
    · exact mem_names_of_createFans hf hfans hnames hk
    · exact mem_names_of_createTargets hts hnames ht
    · exact mem_names_of_init l.lamps hleds hnames hled
  have hkeys : (cards.map fun c => (c, ({} : Display))).map (·.1.key) = cards.map TempCard.key := by
    rw [List.map_map]
    rfl
  have hblank : ∀ card ∈ cards.map fun c => (c, ({} : Display)), card.2 = {} := by
    intro card hcard
    obtain ⟨c, -, rfl⟩ := List.mem_map.mp hcard
    rfl
  refine ⟨objs, ?_⟩
  split_ifs at h with hnull
  · cases h
    refine ⟨hstore, hobjs, ⟨names, hnames, ?_⟩, hblank, ?_⟩
    · rw [Link.shown, hkeys]
      exact hshown
    · rw [if_pos hnull]
      simp
  · obtain ⟨listed, hlisted, h⟩ := Option.bind_eq_some_iff.mp h
    cases h
    refine ⟨hstore, hobjs, ⟨names, hnames, ?_⟩, hblank, ?_⟩
    · rw [Link.shown, hkeys]
      exact hshown
    · rw [if_neg hnull]
      exact ⟨⟨listed, hlisted, rfl⟩, by simp⟩

/-- The names of the lamps stay when their flags change. -/
theorem keys_refresh {p q : Leds.Panel} {s : State} (h : p.refresh s = some q) :
    ∀ o ∈ q.leds.map Prod.fst, o ∈ p.leds.map Prod.fst := by
  obtain ⟨leds, hleds, h⟩ := Option.bind_eq_some_iff.mp h
  cases h
  intro o ho
  obtain ⟨led', hled', rfl⟩ := List.mem_map.mp ho
  obtain ⟨led, hled, hread⟩ := exists_of_mem_mapM hleds hled'
  refine List.mem_map.mpr ⟨led, hled, ?_⟩
  simp only [Leds.Panel.refreshLed, Option.bind_eq_bind, Option.bind_eq_some_iff] at hread
  obtain ⟨v, -, on, -, hread⟩ := hread
  cases on with
  | some on =>
    cases hread
    rfl
  | none =>
    simp only [Option.bind_eq_some_iff] at hread
    obtain ⟨c, -, w, -, hread⟩ := hread
    cases hread
    rfl

theorem keys_consume {p q : Leds.Panel} {st : Status} {t : ℚ} (h : p.consume st t = some q) :
    ∀ o ∈ q.leds.map Prod.fst, o ∈ p.leds.map Prod.fst := by
  obtain ⟨read, hread, h⟩ := Option.bind_eq_some_iff.mp h
  have hleds : q.leds = read.map Prod.fst := by
    cases h
    split_ifs <;> rfl
  rw [hleds]
  intro o ho
  obtain ⟨led', hled', rfl⟩ := List.mem_map.mp ho
  obtain ⟨r, hr, rfl⟩ := List.mem_map.mp hled'
  obtain ⟨led, hled, hone⟩ := exists_of_mem_mapM hread hr
  refine List.mem_map.mpr ⟨led, hled, ?_⟩
  simp only [Leds.Panel.consumeLed, Option.bind_eq_bind, Option.bind_eq_some_iff] at hone
  obtain ⟨v, -, on, -, w, -, c, -, hone⟩ := hone
  cases hone
  rfl

theorem keys_updateCards {read : String → String → Option Json}
    {cards cards' : List (TempCard × Display)} (h : cards.mapM (updateCard A read) = some cards') :
    ∀ o ∈ cards'.map (·.1.key), o ∈ cards.map (·.1.key) := by
  intro o ho
  obtain ⟨card', hcard', rfl⟩ := List.mem_map.mp ho
  obtain ⟨card, hcard, hu⟩ := exists_of_mem_mapM h hcard'
  exact List.mem_map.mpr ⟨card, hcard, by rw [key_updateCard hu]⟩

/-- An answer to another request leaves its entry in the store and no other. -/
theorem stored_of_answer {l l' : Link} {d : Doc} {r : Request}
    (hr : r ≠ .objectsList ∧ r ≠ .subscribe) (hl : l.answer A conf df d r = some l') :
    ∃ store, (∀ k ∈ ["printer_objs", "printer_state"], store.data.get k = l.store.data.get k) ∧
      ∃ spoolman, l' = { l with store := store, spoolman := spoolman } := by
  have hkey : ∀ at', r.stored = some at' → at'.1 ∉ ["printer_objs", "printer_state"] := by
    intro at' h
    cases r <;> cases h <;> decide
  have hother : l.answer A conf df d r =
      (r.stored.elim (some l.store) fun at' => l.store.setData at'.1 d at'.2).bind fun store =>
        (if r = .serverInfo then Link.hasSpoolman d else some false).bind fun spoolman =>
          some { l with store := store, spoolman := l.spoolman || spoolman } := by
    cases r <;> first | rfl | exact absurd rfl hr.1 | exact absurd rfl hr.2
  rw [hother] at hl
  obtain ⟨store, hstore, hl⟩ := Option.bind_eq_some_iff.mp hl
  obtain ⟨spoolman, -, hl⟩ := Option.bind_eq_some_iff.mp hl
  cases hl
  refine ⟨store, fun k hk => ?_, _, rfl⟩
  cases hr' : r.stored with
  | none =>
    rw [hr'] at hstore
    cases hstore
    rfl
  | some at' =>
    rw [hr'] at hstore
    exact State.get_setData_of_ne hstore fun heq => hkey at' hr' (heq ▸ hk)

/-- The last subscription asks for everything that is on display, and for everything that
the store's object list could bring there. -/
structure Covered (l : Link) : Prop where
  listed : ∀ names, l.store.objectNames = some names → ∀ n ∈ names,
    State.hasPrefix "gcode_macro " n = false → n ∈ l.subscribed.map Prod.fst
  shown : ∀ o ∈ l.shown, o ∈ l.subscribed.map Prod.fst

/-- An object list is an array, and an answer without one is an error. -/
def Lists : Event → Prop
  | .reply .objectsList d => ∀ objs, getAt ["result", "objects"] d.json = some objs →
    objs = .null ∨ objs.isArray
  | _ => True

namespace Covered

/-- What keeps the object list and the subscription, and adds nothing to the display. -/
theorem of_kept {l l' : Link} (h : Covered l)
    (hnames : l'.store.objectNames = l.store.objectNames)
    (hsub : l'.subscribed = l.subscribed) (hshown : ∀ o ∈ l'.shown, o ∈ l.shown) : Covered l' where
  listed := by
    rw [hnames, hsub]
    exact h.listed
  shown o ho := by
    rw [hsub]
    exact h.shown o (hshown o ho)

theorem connected {l : Link} (h : Covered l) : Covered l.connected where
  listed names hnames := by
    cases hnames
    exact fun n hn => absurd hn List.not_mem_nil
  shown := h.shown

theorem objectsListed {l l' : Link} {d : Doc} (h : Covered l)
    (hd : ∀ objs, getAt ["result", "objects"] d.json = some objs → objs = .null ∨ objs.isArray)
    (hl : l.objectsListed conf df d = some l') : Covered l' := by
  obtain ⟨objs, hstore, hobjs, ⟨names, hnames, hshown⟩, -, hsub⟩ := listed_of_objectsListed hl
  have hlisted : ∀ n ∈ names, State.hasPrefix "gcode_macro " n = false →
      n ∈ l'.subscribed.map Prod.fst := by
    rcases State.objectNames_listed hstore hobjs (hd objs hobjs) with hsame | ⟨hnull, hold⟩
    · by_cases hnull : objs = .null
      · rw [hnull] at hsame
        cases hnames.symm.trans hsame
        exact fun n hn => absurd hn List.not_mem_nil
      · rw [if_neg hnull] at hsub
        obtain ⟨⟨names', hnames', hsub⟩, -⟩ := hsub
        rw [hsame, hnames'] at hnames
        cases hnames
        intro n hn hmacro
        rw [hsub]
        exact mem_subscription hn hmacro
    · rw [if_pos hnull] at hsub
      rw [hsub.1]
      rcases hold names hnames with rfl | hnames
      · exact fun n hn => absurd hn List.not_mem_nil
      · exact h.listed names hnames
  refine ⟨fun names' hnames' => ?_, fun o ho => hlisted o (hshown o ho).1 (hshown o ho).2⟩
  cases hnames.symm.trans hnames'
  exact hlisted

theorem subscriptionAnswered {l l' : Link} {d : Doc} (h : Covered l)
    (hl : l.subscriptionAnswered A d = some l') : Covered l' := by
  simp only [Link.subscriptionAnswered, Option.bind_eq_bind, Option.bind_eq_some_iff] at hl
  obtain ⟨store, hstore, lamps, hlamps, cards, hcards, hl⟩ := hl
  cases hl
  refine h.of_kept (State.objectNames_congr (State.get_setData_of_ne hstore (by decide))) rfl
    fun o ho => ?_
  simp only [Link.shown, List.mem_append] at ho ⊢
  rcases ho with ((ho | ho) | ho) | ho
  · exact Or.inl (Or.inl (Or.inl (keys_updateCards hcards o ho)))
  · exact Or.inl (Or.inl (Or.inr ho))
  · exact Or.inl (Or.inr ho)
  · exact Or.inr (keys_refresh hlamps o ho)

theorem notified {l l' : Link} {st : Status} {t : ℚ} (h : Covered l)
    (hl : l.notified A st t = some l') : Covered l' := by
  simp only [Link.notified, Option.bind_eq_bind, Option.bind_eq_some_iff] at hl
  obtain ⟨store, hstore, lamps, hlamps, cards, hcards, hl⟩ := hl
  cases hl
  have hreceive : l.store.receive (.update st t) = some store := hstore
  have hnames := State.objectNames_receive l.store (.update st t)
  rw [hreceive] at hnames
  refine h.of_kept hnames rfl fun o ho => ?_
  simp only [Link.shown, List.mem_append] at ho ⊢
  rcases ho with ((ho | ho) | ho) | ho
  · exact Or.inl (Or.inl (Or.inl (keys_updateCards hcards o ho)))
  · exact Or.inl (Or.inl (Or.inr ho))
  · exact Or.inl (Or.inr ho)
  · exact Or.inr (keys_consume hlamps o ho)

/-- Another answer changes an entry of its own in the store. -/
theorem stored {l l' : Link} {d : Doc} {r : Request} (h : Covered l)
    (hr : r ≠ .objectsList ∧ r ≠ .subscribe) (hl : l.answer A conf df d r = some l') :
    Covered l' := by
  obtain ⟨store, hstore, spoolman, rfl⟩ := stored_of_answer hr hl
  exact h.of_kept (State.objectNames_congr (hstore "printer_objs" (by simp))) rfl fun o ho => ho

theorem handle {l l' : Link} {e : Event} (h : Covered l) (he : Lists e)
    (hl : l.handle A conf df e = some l') : Covered l' := by
  cases e with
  | opened =>
    cases hl
    have hemptied : Covered { l with waiting := [] } := h.of_kept rfl rfl fun o ho => ho
    exact hemptied.connected
  | klippyReady =>
    cases hl
    exact h.connected
  | klippyDisconnected | closed =>
    cases hl
    exact h.of_kept rfl rfl fun o ho => ho
  | update st t => exact h.notified hl
  | reply r d =>
    rw [Link.handle] at hl
    split_ifs at hl with hmem
    · have h' : Covered { l with waiting := l.waiting.erase r } :=
        h.of_kept rfl rfl fun o ho => ho
      by_cases hlist : r = .objectsList
      · subst hlist
        exact h'.objectsListed he hl
      · by_cases hsub : r = .subscribe
        · subst hsub
          exact h'.subscriptionAnswered hl
        · exact h'.stored ⟨hlist, hsub⟩ hl
    · cases hl
      exact h

end Covered

theorem covered_start (s : State) : Covered (Link.start s) where
  listed names hnames := by
    cases hnames
    exact fun n hn => absurd hn List.not_mem_nil
  shown o ho := absurd ho (by simp [Link.shown, Link.start])

variable (A conf df)

/-- Whatever is on display has been subscribed to, over any order of connections, answers and
reports. -/
theorem shown_subscribed (s : State) (es : List Event) (hes : ∀ e ∈ es, Lists e) (l : Link)
    (h : run (Link.step A conf df) (some (Link.start s)) es = some l) :
    ∀ o ∈ l.shown, o ∈ l.subscribed.map Prod.fst := by
  have hrun : ∀ l ∈ run (Link.step A conf df) (some (Link.start s)) es, Covered l := by
    refine run_of_forall (Q := Lists) (I := fun o => ∀ l ∈ o, Covered l) ?_ ?_ hes
    · intro o e he ho l' hl'
      obtain ⟨l, rfl, hl⟩ := Option.bind_eq_some_iff.mp hl'
      exact (ho l rfl).handle he hl
    · intro l hl
      cases hl
      exact covered_start s
  exact (hrun l h).shown

/-- A printer with an extruder, a part fan and a macro. -/
def extruderList : Doc where
  json := .obj [("result", .obj [("objects",
    .arr [.str "extruder", .str "fan", .str "gcode_macro PARK"])])]
  sorted := by decide

theorem shown_subscribed_extruder : ∃ l, run (Link.step PrintStatus.Job.exactArith (.obj []) "/")
      (some (Link.start ⟨[], by decide⟩)) [.opened, .reply .objectsList extruderList] = some l ∧
    l.shown = ["extruder", "fan"] ∧ ∀ o ∈ l.shown, o ∈ l.subscribed.map Prod.fst := by
  have hshown : (run (Link.step PrintStatus.Job.exactArith (.obj []) "/")
      (some (Link.start ⟨[], by decide⟩)) [.opened, .reply .objectsList extruderList]).map
        Link.shown = some ["extruder", "fan"] := by decide
  obtain ⟨l, hl, hshown⟩ := Option.map_eq_some_iff.mp hshown
  refine ⟨l, hl, hshown, shown_subscribed _ _ _ _ _ (fun e he => ?_) l hl⟩
  simp only [List.mem_cons, List.not_mem_nil, or_false] at he
  rcases he with rfl | rfl
  · trivial
  · intro objs hobjs
    cases hobjs
    exact Or.inr rfl

end PowerScreen.InitPanel
