import PowerScreen.Library.Fields
import PowerScreen.ExcludeObject.Boxes
import PowerScreen.ExcludeObject.Confirm

/-! # When the Exclude Object panel is drawn again

A status is drawn only if the signature has changed, a text of the names, the flags and the
current object. The boxes are not part of it, and a name may hold what separates the names.
-/
namespace PowerScreen.ExcludeObject
open Library Library.Run

namespace Panel

/-- What is shown was built from the present objects and the present current object. -/
structure Fresh (p : Panel) : Prop where
  objects : p.shownObjects = p.objects
  current : p.shownCurrent = p.currentObject

/-- What the signature is made of. -/
def key (p : Panel) : List (String × Bool) × String :=
  (p.objects.map fun o => (o.name, o.excluded), p.currentObject)

/-- A change of the boxes comes with another of the key, and a change of the key with another text
of it. -/
structure Tells (p q : Panel) : Prop where
  boxes : q.key = p.key → q.objects.map Object.box = p.objects.map Object.box
  text : q.signature = p.signature → q.key = p.key

/-- The separators of the signature are in no name, no name ends in the mark of the excluded. -/
def Plain (p : Panel) : Prop :=
  (∀ o ∈ p.objects, ',' ∉ o.name.toList ∧ o.name.toList.getLast? ≠ some '!') ∧
    '|' ∉ p.currentObject.toList

/-- The panel is fresh, and its signature the last one unless it has shown nothing yet. -/
def Kept (p : Panel) : Prop :=
  p.Fresh ∧ (p.lastSignature = p.signature ∨
    p.lastSignature = "" ∧ p.objects = [] ∧ p.currentObject = "")

def marked (o : String × Bool) : List Char := o.1.toList ++ if o.2 then ['!'] else []

theorem toList_foldl_signature (objects : List Object) (sig : String) :
    (objects.foldl (fun sig o => sig ++ (o.name ++ (if o.excluded then "!" else "") ++ ","))
        sig).toList =
      sig.toList ++
        ((objects.map fun o => (o.name, o.excluded)).map marked).flatMap (· ++ [',']) := by
  induction objects generalizing sig with
  | nil => simp
  | cons o objects ih =>
    rw [List.foldl_cons, ih]
    cases ho : o.excluded <;> simp [marked, ho]

theorem toList_signature (p : Panel) :
    p.signature.toList =
      p.key.2.toList ++ '|' :: (p.key.1.map marked).flatMap (· ++ [',']) := by
  rw [signature, toList_foldl_signature]
  simp [key]

theorem signature_ne_empty (p : Panel) : p.signature ≠ "" := by
  intro h
  have hlist := congrArg String.toList h
  rw [toList_signature] at hlist
  simp at hlist

theorem signature_congr {p q : Panel} (h : q.key = p.key) : q.signature = p.signature :=
  String.toList_injective (by rw [toList_signature, toList_signature, h])

/-- How a mark is read. -/
def unmarked (l : List Char) : String × Bool :=
  if l.getLast? = some '!' then (String.ofList l.dropLast, true) else (String.ofList l, false)

theorem unmarked_marked {o : String × Bool} (h : o.1.toList.getLast? ≠ some '!') :
    unmarked (marked o) = o := by
  obtain ⟨n, e⟩ := o
  cases e
  · have hmarked : marked (n, false) = n.toList := List.append_nil _
    rw [hmarked, unmarked, if_neg h, String.ofList_toList]
  · simp [marked, unmarked]

theorem Plain.name {p : Panel} (hp : p.Plain) {o : String × Bool} (ho : o ∈ p.key.1) :
    ',' ∉ o.1.toList ∧ o.1.toList.getLast? ≠ some '!' := by
  obtain ⟨ob, hob, rfl⟩ := List.mem_map.mp ho
  exact hp.1 ob hob

theorem Plain.fields_marked {p : Panel} (hp : p.Plain) :
    fields ',' ((p.key.1.map marked).flatMap (· ++ [','])) = p.key.1.map marked := by
  refine fields_lines fun l hl => ?_
  obtain ⟨o, ho, rfl⟩ := List.mem_map.mp hl
  have hname := (hp.name ho).1
  cases he : o.2 <;> simp [marked, he, hname]

theorem Plain.map_unmarked {p : Panel} (hp : p.Plain) :
    (p.key.1.map marked).map unmarked = p.key.1 := by
  rw [List.map_map]
  exact (List.map_congr_left fun o ho => unmarked_marked (hp.name ho).2).trans (List.map_id _)

/-- The signature of plain names is read back. -/
theorem key_eq_of_signature {p q : Panel} (hp : p.Plain) (hq : q.Plain)
    (h : q.signature = p.signature) : q.key = p.key := by
  have hlist := congrArg String.toList h
  rw [toList_signature, toList_signature] at hlist
  have hcurrent : q.key.2.toList = p.key.2.toList := by
    have hfields := congrArg (fields '|') hlist
    rw [fields_append_cons (show '|' ∉ q.key.2.toList from hq.2),
      fields_append_cons (show '|' ∉ p.key.2.toList from hp.2)] at hfields
    exact (List.cons.inj hfields).1
  rw [hcurrent] at hlist
  have hmarked : q.key.1.map marked = p.key.1.map marked := by
    rw [← hq.fields_marked, (List.cons.inj (List.append_cancel_left hlist)).2, hp.fields_marked]
  refine Prod.ext ?_ (String.toList_injective hcurrent)
  rw [← hq.map_unmarked, hmarked, hp.map_unmarked]

/-- The objects are their key and their boxes. -/
theorem objects_eq_of_key {p q : Panel} (hkey : q.key = p.key)
    (hbox : q.objects.map Object.box = p.objects.map Object.box) : q.objects = p.objects := by
  have hinj : Function.Injective fun o : Object => ((o.name, o.excluded), o.box) := by
    rintro ⟨n, a, b, c, d, e⟩ ⟨n', a', b', c', d', e'⟩ h
    simp only [Object.box, Prod.mk.injEq, Box.mk.injEq] at h
    obtain ⟨⟨rfl, rfl⟩, rfl, rfl, rfl, rfl⟩ := h
    rfl
  have hzip (l : List Object) : l.map (fun o => ((o.name, o.excluded), o.box)) =
      (l.map fun o => (o.name, o.excluded)).zip (l.map Object.box) := List.zip_map'.symm
  have hnames : q.objects.map (fun o => (o.name, o.excluded)) =
      p.objects.map fun o => (o.name, o.excluded) := congrArg Prod.fst hkey
  refine List.map_injective_iff.mpr hinj ?_
  rw [hzip, hzip, hnames, hbox]

theorem kept_iff_of_lastSignature {p : Panel} (h : p.lastSignature = p.signature) :
    p.Kept ↔ p.Fresh := ⟨And.left, fun hf => ⟨hf, Or.inl h⟩⟩

@[simp] theorem lastSignature_refresh (p : Panel) :
    p.refresh.lastSignature = p.refresh.signature := by
  unfold refresh
  split_ifs with h
  · rfl
  · exact (not_not.mp h).symm

/-- What a merge leaves alone. -/
theorem merge_shown {p q : Panel} {status : Json} (h : p.merge status = some q) :
    q.lastSignature = p.lastSignature ∧ q.shownObjects = p.shownObjects ∧
      q.shownCurrent = p.shownCurrent := by
  unfold merge at h
  split_ifs at h with hobj
  · obtain ⟨objects, -, rfl⟩ := Option.map_eq_some_iff.mp h
    exact ⟨rfl, rfl, rfl⟩
  · cases h
    exact ⟨rfl, rfl, rfl⟩

theorem fresh_refresh {q : Panel} (h : q.signature ≠ q.lastSignature) : q.refresh.Fresh := by
  rw [refresh, if_pos h]
  exact ⟨rfl, rfl⟩

theorem tells_of_ne {p q : Panel} (h : q.signature ≠ p.signature) : p.Tells q where
  boxes hkey := absurd (signature_congr hkey) h
  text htext := absurd htext h

/-- The signature tells that there are no objects and no current one. -/
theorem key_eq_of_empty {p q : Panel} (hobjects : p.objects = []) (hcurrent : p.currentObject = "")
    (h : q.signature = p.signature) : q.key = p.key := by
  have hp : p.key = ([], "") := by rw [key, hobjects, hcurrent, List.map_nil]
  have hlist : q.key.2.toList ++ '|' :: (q.key.1.map marked).flatMap (· ++ [',']) = ['|'] := by
    rw [← toList_signature, h, toList_signature, hp]
    rfl
  rcases List.append_eq_singleton_iff.mp hlist with ⟨hnone, hrest⟩ | ⟨-, hrest⟩
  · have hnil := (List.cons.inj hrest).2
    rw [hp]
    refine Prod.ext ?_ (String.toList_injective hnone)
    cases hkey : q.key.1 with
    | nil => rfl
    | cons o os => simp [hkey] at hnil
  · cases hrest

/-- A status keeps the panel fresh exactly if the signature tells what has changed. -/
theorem kept_refresh_iff {p q : Panel} (hp : p.Kept) {status : Json}
    (hq : p.merge status = some q) :
    (q.refresh.Fresh ↔ p.Tells q) ∧ (q.refresh.Kept ↔ q.refresh.Fresh) := by
  refine ⟨?_, kept_iff_of_lastSignature (lastSignature_refresh q)⟩
  obtain ⟨hsig, hobjects, hcurrent⟩ := merge_shown hq
  obtain ⟨hfresh, hlast | ⟨hlast, hnone, hname⟩⟩ := hp
  · by_cases h : q.signature = p.signature
    · -- nothing is drawn, and what is shown is that of before
      have hrefresh : q.refresh = q := by rw [refresh, if_neg (by rw [h, hsig, hlast]; simp)]
      rw [hrefresh]
      constructor
      · intro hq
        have hobj : q.objects = p.objects := by rw [← hq.objects, hobjects, hfresh.objects]
        have hcur : q.currentObject = p.currentObject := by
          rw [← hq.current, hcurrent, hfresh.current]
        exact ⟨fun _ => by rw [hobj], fun _ => by rw [key, key, hobj, hcur]⟩
      · intro ht
        have hkey := ht.text h
        refine ⟨?_, ?_⟩
        · rw [hobjects, hfresh.objects, objects_eq_of_key hkey (ht.boxes hkey)]
        · rw [hcurrent, hfresh.current]
          exact (congrArg Prod.snd hkey).symm
    · exact iff_of_true (fresh_refresh (by rwa [hsig, hlast])) (tells_of_ne h)
  · refine iff_of_true (fresh_refresh ?_) ⟨fun hkey => ?_, key_eq_of_empty hnone hname⟩
    · rw [hsig, hlast]
      exact signature_ne_empty q
    · have hq : q.objects = [] := by
        have := congrArg Prod.fst hkey
        simpa [key, hnone] using this
      rw [hq, hnone]

theorem syncFromState_eq (p : Panel) (full : Json) :
    p.syncFromState full = (p.merge full).map refresh := by
  unfold syncFromState
  split_ifs with hobj
  · rfl
  · rw [merge, if_neg hobj]
    rfl

/-- What the drawing depends on. -/
def drawn (p : Panel) : (List Object × String) × String × List Object × String :=
  ((p.objects, p.currentObject), p.lastSignature, p.shownObjects, p.shownCurrent)

theorem Kept.congr {p q : Panel} (h : p.Kept) (hq : q.drawn = p.drawn) : q.Kept := by
  obtain ⟨⟨hobjects, hcurrent⟩, hlast⟩ := h
  obtain ⟨⟨ho, hc⟩, hl, hso, hsc⟩ : (q.objects = p.objects ∧ q.currentObject = p.currentObject) ∧
      q.lastSignature = p.lastSignature ∧ q.shownObjects = p.shownObjects ∧
        q.shownCurrent = p.shownCurrent := by simpa [drawn] using hq
  have hsig : q.signature = p.signature := by rw [signature, signature, ho, hc]
  exact ⟨⟨by rw [hso, ho, hobjects], by rw [hsc, hc, hcurrent]⟩, by rwa [hl, hsig, ho, hc]⟩

theorem Kept.foreground {p q : Panel} {full : Json} (h : p.foreground full = some q) : q.Kept := by
  rw [Panel.foreground, syncFromState_eq] at h
  obtain ⟨r, hr, rfl⟩ := Option.map_eq_some_iff.mp h
  obtain ⟨r, -, rfl⟩ := Option.map_eq_some_iff.mp hr
  exact ⟨⟨rfl, rfl⟩, Or.inl (lastSignature_refresh r)⟩

theorem Kept.doExclude {p : Panel} (h : p.Kept) : p.doExclude.1.Kept := by
  unfold Panel.doExclude
  split_ifs
  · exact h
  · cases p.objects[p.pending.toNat]? with
    | none => exact h
    | some ob => exact ⟨⟨rfl, rfl⟩, Or.inl rfl⟩

theorem Kept.ask {p : Panel} (h : p.Kept) (index : ℤ) : (p.ask index).Kept := by
  unfold Panel.ask
  split_ifs
  · exact h
  · cases p.objects[index.toNat]? with
    | none => exact h
    | some ob =>
      dsimp only
      split_ifs
      · exact h
      · exact h.congr rfl

theorem Kept.handleEvent {p : Panel} (h : p.Kept) (t : Target) : (p.handleEvent t).1.Kept := by
  cases t with
  | cancel => exact h.congr rfl
  | ok => exact Kept.doExclude (h.congr rfl)
  | exclude row =>
    dsimp only [Panel.handleEvent]
    split_ifs
    · exact h.ask row
    · exact h

end Panel

namespace Session

def Fresh (s : Session) : Prop := s.panel.Fresh

def Kept (s : Session) : Prop := s.panel.Kept

/-- What a status says shows in the signature. -/
def Says (p : Panel) : Event → Prop
  | .update status | .sync status => ∀ q, p.merge status = some q → p.Tells q
  | _ => True

def Told (s : Session) (e : Event) : Prop := s.running → Says s.panel e

theorem Kept.updated {s : Session} (h : s.Kept) {p : Option Panel}
    (hp : ∀ q, p = some q → q.Kept) : (s.updated p).Kept := by
  cases p with
  | none => exact h
  | some q => exact hp q rfl

/-- A status that is merged and drawn. -/
theorem updated_merge {s : Session} (h : s.Kept) (status : Json) :
    ((s.updated ((s.panel.merge status).map Panel.refresh)).Fresh ↔
      ∀ q, s.panel.merge status = some q → s.panel.Tells q) ∧
    ((s.updated ((s.panel.merge status).map Panel.refresh)).Fresh →
      (s.updated ((s.panel.merge status).map Panel.refresh)).Kept) := by
  cases hq : s.panel.merge status with
  | none => exact ⟨iff_of_true h.1 (fun q hq => by cases hq), fun _ => h⟩
  | some q =>
    obtain ⟨hfresh, hkept⟩ := Panel.kept_refresh_iff h hq
    refine ⟨hfresh.trans ?_, hkept.mpr⟩
    simp

theorem fresh_step_iff {s : Session} (h : s.Kept) (e : Event) :
    ((s.step e).Fresh ↔ s.Told e) ∧ ((s.step e).Fresh → (s.step e).Kept) := by
  have hkept (hstep : (s.step e).Kept) (ht : s.Told e) :
      ((s.step e).Fresh ↔ s.Told e) ∧ ((s.step e).Fresh → (s.step e).Kept) :=
    ⟨iff_of_true hstep.1 ht, fun _ => hstep⟩
  cases hrun : s.running with
  | false =>
    refine hkept ?_ fun hr => ?_
    · simpa [step, hrun] using h
    · rw [hrun] at hr
      cases hr
  | true =>
    have htold : s.Told e ↔ Says s.panel e := by simp [Told, hrun]
    cases e with
    | update status =>
      rw [htold, step, if_pos hrun]
      by_cases hnull : status = .null
      · -- no status, which a merge takes for one that says nothing
        subst hnull
        refine ⟨iff_of_true h.1 fun q hq => ?_, fun _ => h⟩
        cases hq
        exact ⟨fun _ => rfl, fun _ => rfl⟩
      · have hconsume : s.panel.consume status = (s.panel.merge status).map Panel.refresh :=
          if_neg hnull
        rw [hconsume]
        exact updated_merge h status
    | sync full =>
      rw [htold, step, if_pos hrun, Panel.syncFromState_eq]
      exact updated_merge h full
    | opened full =>
      refine hkept ?_ (htold.mpr trivial)
      rw [step, if_pos hrun]
      exact h.updated fun q hq => Panel.Kept.foreground hq
    | closed =>
      refine hkept ?_ (htold.mpr trivial)
      rw [step, if_pos hrun]
      exact Panel.Kept.congr h rfl
    | click t =>
      refine hkept ?_ (htold.mpr trivial)
      rw [step, if_pos hrun, clicked]
      split_ifs
      · exact Panel.Kept.handleEvent h t
      · exact h

/-- One object with the given corners. -/
def placed (name : String) (a b : ℤ) : Json :=
  .obj [("name", .str name), ("polygon", .arr [.arr [.num (.int a), .num (.int a)],
    .arr [.num (.int b), .num (.int b)]])]

end Session
end PowerScreen.ExcludeObject
