import PowerScreen.Wifi.Prompt
import PowerScreen.Wifi.Scan

/-! # The selected network after a scan

The selection is an index. A scan's networks arrive in the order of their names, and it is
in this list that `rebuild_list` looks up which network was selected.
-/
namespace PowerScreen.Wifi
open Library

def names (networks : List Network) : List String := networks.map Network.ssid

/-- The access points of a reply. -/
def heard (reply : String) : List Network := (fields '\n' reply.toList).filterMap parseLine

/-- The list that a scan's reply asks for. -/
structure Lists (cur reply : String) (networks : List Network) : Prop where
  once : (names networks).Nodup
  all : ∀ n ∈ heard reply, n.ssid ∈ names networks
  strongest : ∀ n ∈ networks,
    n ∈ heard reply ∧ ∀ m ∈ heard reply, m.ssid = n.ssid → m.signal ≤ n.signal
  ordered : networks.Pairwise fun a b =>
    (b.ssid = cur → a.ssid = cur) ∧ ((a.ssid = cur ↔ b.ssid = cur) → b.signal ≤ a.signal)

/-- What is kept of the access points after some of them have been read. -/
structure Kept (ns : List Network) (best : List (String × Network)) : Prop where
  sorted : Assoc.Sorted best
  named : Named best
  all : ∀ n ∈ ns, (best.lookup n.ssid).isSome
  strongest : ∀ k n, best.lookup k = some n →
    n ∈ ns ∧ ∀ m ∈ ns, m.ssid = k → m.signal ≤ n.signal

theorem kept_nil : Kept [] [] :=
  ⟨List.Pairwise.nil, named_nil, by simp, by simp⟩

theorem Kept.insert {ns : List Network} {best : List (String × Network)} (h : Kept ns best)
    {n : Network} (hless : ∀ old, best.lookup n.ssid = some old → old.signal < n.signal) :
    ∀ k r, (Assoc.insert n.ssid n best).lookup k = some r →
      r ∈ ns ++ [n] ∧ ∀ m ∈ ns ++ [n], m.ssid = k → m.signal ≤ r.signal := by
  intro k r hr
  simp only [List.mem_append, List.mem_singleton]
  rw [Assoc.lookup_insert] at hr
  split_ifs at hr with hk
  · cases hr
    refine ⟨Or.inr rfl, fun m hm hname => hm.elim (fun hm => ?_) fun hm => hm ▸ le_rfl⟩
    obtain ⟨old, hold⟩ := Option.isSome_iff_exists.mp (h.all m hm)
    have hle := (h.strongest _ _ hold).2 m hm rfl
    exact hle.trans (hless old (by rw [← hk, ← hname, hold])).le
  · obtain ⟨hmem, hbest⟩ := h.strongest k r hr
    exact ⟨Or.inl hmem, fun m hm hname => hm.elim (fun hm => hbest m hm hname)
      fun hm => absurd (hm ▸ hname).symm hk⟩

theorem keepBest_cases (best : List (String × Network)) (n : Network) :
    ((∀ old, best.lookup n.ssid = some old → old.signal < n.signal) ∧
        keepBest best n = Assoc.insert n.ssid n best) ∨
      ∃ old, best.lookup n.ssid = some old ∧ n.signal ≤ old.signal ∧ keepBest best n = best := by
  unfold keepBest
  cases hold : best.lookup n.ssid with
  | none => exact Or.inl ⟨fun _ h => absurd h (Option.some_ne_none _).symm, rfl⟩
  | some old =>
    by_cases hless : old.signal < n.signal
    · exact Or.inl ⟨fun _ h => Option.some.inj h ▸ hless, if_pos hless⟩
    · exact Or.inr ⟨old, rfl, not_lt.mp hless, if_neg hless⟩

theorem Kept.keepBest {ns : List Network} {best : List (String × Network)} (h : Kept ns best)
    (n : Network) : Kept (ns ++ [n]) (keepBest best n) := by
  have hnamed := h.named.keepBest n
  have hall : ∀ m ∈ ns ++ [n], ((Wifi.keepBest best n).lookup m.ssid).isSome := by
    intro m hm
    refine isSome_keepBest ((List.mem_append.mp hm).imp (h.all m) fun hm => ?_)
    rw [List.mem_singleton.mp hm]
  rcases keepBest_cases best n with ⟨hless, heq⟩ | ⟨old, hold, hle, heq⟩
  · rw [heq] at hnamed hall ⊢
    exact ⟨h.sorted.insert _ _, hnamed, hall, h.insert hless⟩
  · rw [heq] at hall ⊢
    refine ⟨h.sorted, h.named, hall, fun k r hr => ?_⟩
    obtain ⟨hmem, hbest⟩ := h.strongest k r hr
    refine ⟨List.mem_append_left _ hmem, fun m hm hname => ?_⟩
    rcases List.mem_append.mp hm with hm | hm
    · exact hbest m hm hname
    · rw [List.mem_singleton.mp hm] at hname ⊢
      rw [hname, hr] at hold
      exact Option.some.inj hold ▸ hle

theorem kept_foldl (ns : List Network) : Kept ns (ns.foldl keepBest []) := by
  induction ns using List.reverseRecOn with
  | nil => exact kept_nil
  | append_singleton ns n ih =>
    rw [List.foldl_append]
    exact ih.keepBest n

theorem names_map_snd {best : List (String × Network)} (hs : Assoc.Sorted best)
    (h : Named best) : names (best.map Prod.snd) = best.map Prod.fst := by
  rw [names, List.map_map]
  exact List.map_congr_left fun m hm => h m.1 m.2 (Assoc.lookup_of_mem hs hm)

/-- A scan's networks come in the order of their names. -/
theorem names_scanned (reply : String) : (names (scanned reply)).Pairwise (· < ·) := by
  have hkept := kept_foldl (heard reply)
  have hnames : names (scanned reply) = _ := names_map_snd hkept.sorted hkept.named
  rw [hnames]
  exact List.pairwise_map.mpr hkept.sorted

theorem mem_scanned_iff {reply : String} {n : Network} :
    n ∈ scanned reply ↔ ((heard reply).foldl keepBest []).lookup n.ssid = some n := by
  have hkept := kept_foldl (heard reply)
  constructor
  · intro h
    obtain ⟨m, hm, rfl⟩ := List.mem_map.mp h
    have hm' := Assoc.lookup_of_mem hkept.sorted hm
    rw [hkept.named m.1 m.2 hm', hm']
  · exact fun h => List.mem_map.mpr ⟨_, Assoc.mem_of_lookup h, rfl⟩

/-- The network that a list of different names has under a name. -/
theorem eq_of_mem_of_ssid {networks : List Network} (h : (names networks).Nodup) {m n : Network}
    (hm : m ∈ networks) (hn : n ∈ networks) (hname : m.ssid = n.ssid) : m = n :=
  List.inj_on_of_nodup_map h hm hn hname

theorem before_false_iff {cur : String} {a b : Network} : Panel.before cur b a = false ↔
    (b.ssid = cur → a.ssid = cur) ∧ ((a.ssid = cur ↔ b.ssid = cur) → b.signal ≤ a.signal) := by
  unfold Panel.before
  by_cases ha : a.ssid = cur <;> by_cases hb : b.ssid = cur <;> simp [ha, hb]

theorem pairwise_sorted (cur : String) (networks : List Network) :
    (Panel.sorted cur networks).Pairwise fun a b => Panel.before cur b a = false := by
  have htotal : Std.Total fun a b : Network => ¬ Panel.before cur b a := by
    refine ⟨fun a b => ?_⟩
    simp only [Bool.not_eq_true, before_false_iff]
    by_cases ha : a.ssid = cur <;> by_cases hb : b.ssid = cur <;> simp [ha, hb, le_total]
  have htrans : IsTrans Network fun a b => ¬ Panel.before cur b a := by
    refine ⟨fun a b c => ?_⟩
    simp only [Bool.not_eq_true, before_false_iff]
    by_cases ha : a.ssid = cur <;> by_cases hb : b.ssid = cur <;> by_cases hc : c.ssid = cur <;>
      simp [ha, hb, hc]
    all_goals exact fun h k => k.trans h
  exact (List.pairwise_insertionSort _ networks).imp (Bool.not_eq_true _).mp

theorem perm_sorted (cur : String) (networks : List Network) :
    (Panel.sorted cur networks).Perm networks :=
  List.perm_insertionSort _ networks

theorem lists_sorted (cur reply : String) : Lists cur reply (Panel.sorted cur (scanned reply)) := by
  have hkept := kept_foldl (heard reply)
  have hperm := perm_sorted cur (scanned reply)
  have hnames : (names (Panel.sorted cur (scanned reply))).Perm (names (scanned reply)) :=
    hperm.map _
  have hnodup : (names (scanned reply)).Nodup := (names_scanned reply).imp ne_of_lt
  have hpair := (pairwise_sorted cur (scanned reply)).imp before_false_iff.mp
  refine ⟨hnames.nodup_iff.mpr hnodup, fun n hn => ?_, fun n hn => ?_, hpair⟩
  · obtain ⟨m, hm⟩ := Option.isSome_iff_exists.mp (hkept.all n hn)
    refine hnames.mem_iff.mpr (List.mem_map.mpr ⟨m, ?_, hkept.named _ m hm⟩)
    exact List.mem_map.mpr ⟨(n.ssid, m), Assoc.mem_of_lookup hm, rfl⟩
  · exact hkept.strongest n.ssid n (mem_scanned_iff.mp (hperm.mem_iff.mp hn))

theorem ssid_of_lastIndexOf {ssid : String} {networks : List Network} {i : ℕ}
    (h : Panel.lastIndexOf ssid networks = some i) :
    ∃ n, networks[i]? = some n ∧ n ∈ networks ∧ n.ssid = ssid := by
  obtain ⟨m, hfind, rfl⟩ := Option.map_eq_some_iff.mp h
  have hmem := List.mem_reverse.mp (List.mem_of_find?_eq_some hfind)
  have hget := List.mem_zipIdx_iff_getElem?.mp hmem
  have hname := List.find?_some hfind
  exact ⟨m.1, hget, List.mem_of_getElem? hget, of_decide_eq_true hname⟩

theorem lastIndexOf_eq_none_iff {ssid : String} {networks : List Network} :
    Panel.lastIndexOf ssid networks = none ↔ ssid ∉ names networks := by
  rw [Panel.lastIndexOf, Option.map_eq_none_iff, List.find?_eq_none]
  simp only [List.mem_reverse, decide_eq_true_eq]
  constructor
  · intro h hmem
    obtain ⟨n, hn, hname⟩ := List.mem_map.mp hmem
    obtain ⟨i, hi⟩ := List.mem_iff_getElem?.mp hn
    exact h (n, i) (List.mem_zipIdx_iff_getElem?.mpr hi) hname
  · rintro h ⟨n, i⟩ hn hname
    exact h (List.mem_map.mpr
      ⟨n, List.mem_of_getElem? (List.mem_zipIdx_iff_getElem?.mp hn), hname⟩)

namespace Panel

theorem chosen_rebuildList (p : Panel) {networks : List Network} {index : Option ℕ}
    (hsorted : sorted p.curNetwork p.networks = networks)
    (hindex : lastIndexOf (p.chosen.elim p.curNetwork Network.ssid) networks = index) :
    p.rebuildList.chosen =
      (if index = none ∧ networks ≠ [] then some 0 else index).bind (networks[·]?) := by
  subst hsorted hindex
  rfl

theorem chosen_of_mem {p : Panel} (hnodup : (names p.networks).Nodup) {n : Network}
    (hn : n ∈ p.networks) (h : p.chosen.elim p.curNetwork Network.ssid = n.ssid) :
    p.rebuildList.chosen = some n := by
  have hperm := perm_sorted p.curNetwork p.networks
  have hmem : n.ssid ∈ names (sorted p.curNetwork p.networks) :=
    List.mem_map_of_mem (hperm.mem_iff.mpr hn)
  obtain ⟨i, hi⟩ := Option.ne_none_iff_exists'.mp
    fun hnone => lastIndexOf_eq_none_iff.mp hnone hmem
  obtain ⟨m, hget, hm, hname⟩ := ssid_of_lastIndexOf hi
  have heq : m = n := eq_of_mem_of_ssid hnodup (hperm.mem_iff.mp hm) hn hname
  rw [chosen_rebuildList p rfl (h ▸ hi), if_neg (by simp), Option.bind_some, hget, heq]

theorem chosen_of_not_mem {p : Panel}
    (h : p.chosen.elim p.curNetwork Network.ssid ∉ names p.networks) :
    p.rebuildList.chosen = (sorted p.curNetwork p.networks).head? := by
  have hperm : (names (sorted p.curNetwork p.networks)).Perm (names p.networks) :=
    (perm_sorted p.curNetwork p.networks).map _
  have hnone := lastIndexOf_eq_none_iff.mpr fun hmem => h (hperm.mem_iff.mp hmem)
  rw [chosen_rebuildList p rfl hnone]
  cases sorted p.curNetwork p.networks with
  | nil => rfl
  | cons n ns => rfl

end Panel

/-- The strongest of the networks, of equally strong ones the first by name. -/
def First (networks : List Network) (n : Network) : Prop :=
  n ∈ networks ∧ ∀ m ∈ networks, m.signal < n.signal ∨ m.signal = n.signal ∧ n.ssid ≤ m.ssid

theorem First.unique {networks : List Network} (hnodup : (names networks).Nodup) {m n : Network}
    (hm : First networks m) (hn : First networks n) : m = n := by
  refine eq_of_mem_of_ssid hnodup hm.1 hn.1 ?_
  rcases hm.2 n hn.1 with hlt | ⟨heq, hle⟩
  · rcases hn.2 m hm.1 with hlt' | ⟨heq', -⟩
    · exact absurd hlt' hlt.not_gt
    · exact absurd heq' hlt.ne'
  · rcases hn.2 m hm.1 with hlt' | ⟨-, hle'⟩
    · exact absurd heq hlt'.ne'
    · exact le_antisymm hle hle'

/-- Of two members of a list in order the smaller one stands before the other. -/
theorem pair_sublist {networks : List Network} (hnames : (names networks).Pairwise (· < ·))
    {m n : Network} (hm : m ∈ networks) (hn : n ∈ networks) (hlt : m.ssid < n.ssid) :
    [m, n].Sublist networks := by
  induction networks with
  | nil => exact absurd hm List.not_mem_nil
  | cons a networks ih =>
    rw [names, List.map_cons, List.pairwise_cons] at hnames
    rcases List.mem_cons.mp hm with rfl | hm'
    · have hn' := (List.mem_cons.mp hn).resolve_left fun h => hlt.ne (congrArg _ h.symm)
      exact List.Sublist.cons_cons _ (List.singleton_sublist.mpr hn')
    · have hn' : n ∈ networks := by
        refine (List.mem_cons.mp hn).resolve_left fun h => ?_
        subst h
        exact hlt.not_gt (hnames.1 _ (List.mem_map_of_mem hm'))
      exact (ih hnames.2 hm' hn').cons _

theorem first_of_head {networks : List Network} (hnames : (names networks).Pairwise (· < ·))
    {cur : String} (hcur : cur ∉ names networks) {n : Network}
    (h : (Panel.sorted cur networks).head? = some n) : First networks n := by
  have hperm := perm_sorted cur networks
  have hpair := pairwise_sorted cur networks
  have hnodup : (Panel.sorted cur networks).Nodup :=
    hperm.nodup_iff.mpr (List.Nodup.of_map _ (hnames.imp ne_of_lt))
  obtain ⟨tail, hsorted⟩ := List.head?_eq_some_iff.mp h
  have hmem : n ∈ networks := hperm.mem_iff.mp (hsorted ▸ List.mem_cons_self)
  refine ⟨hmem, fun m hm => ?_⟩
  have hne : ∀ a ∈ networks, a.ssid ≠ cur := fun a ha heq => hcur (heq ▸ List.mem_map_of_mem ha)
  rw [hsorted] at hpair hnodup
  rcases List.mem_cons.mp (hsorted ▸ hperm.mem_iff.mpr hm) with rfl | htail
  · exact Or.inr ⟨rfl, le_rfl⟩
  · have hle := (before_false_iff.mp ((List.pairwise_cons.mp hpair).1 m htail)).2
      (by simp [hne n hmem, hne m hm])
    refine hle.lt_or_eq.imp_right fun heq => ⟨heq, not_lt.mp fun hlt => ?_⟩
    -- sorting keeps the order of names among equally strong networks
    have hkeep : [m, n].Sublist (Panel.sorted cur networks) := by
      refine List.pair_sublist_insertionSort ?_ (pair_sublist hnames hm hmem hlt)
      rw [Bool.not_eq_true, before_false_iff]
      simp [hne n hmem, hne m hm, heq]
    rw [hsorted] at hkeep
    have hne : m ≠ n := fun heq => hlt.ne (congrArg _ heq)
    have hin : [m, n].Sublist tail := (List.cons_sublist_cons'.mp hkeep).resolve_right
      fun h => hne h.1
    exact (List.nodup_cons.mp hnodup).1 (hin.subset (by simp))

theorem head_iff_first {networks : List Network} (hnames : (names networks).Pairwise (· < ·))
    {cur : String} (hcur : cur ∉ names networks) (n : Network) :
    (Panel.sorted cur networks).head? = some n ↔ First networks n := by
  refine ⟨first_of_head hnames hcur, fun h => ?_⟩
  cases hhead : (Panel.sorted cur networks).head? with
  | none =>
    have hmem := (perm_sorted cur networks).mem_iff.mpr h.1
    rw [List.head?_eq_none_iff.mp hhead] at hmem
    exact absurd hmem List.not_mem_nil
  | some m => rw [(first_of_head hnames hcur hhead).unique (hnames.imp ne_of_lt) h]

namespace Panel

/-- A scan's results are in; the saved networks are asked for first. -/
def handleScanResults (p : Panel) (nets reply : String) : Panel :=
  (p.findCurrentNetwork nets).1.showScan reply

/-- Connect and Forget are about this network. -/
structure ActsOn (p : Panel) (ssid : String) : Prop where
  connect : ∀ fmt nid, (p.handleConnect fmt nid).1.selectedNetwork = ssid
  forget : ∀ id nets, p.listNetworks.lookup ssid = some id →
    (p.handleForget nets).2.head? = some ("REMOVE_NETWORK " ++ id)

/-- The network that was selected still is, if it is in the list. -/
def Follows (p q : Panel) : Prop :=
  ∀ n, p.chosen = some n → n.ssid ∈ names q.networks →
    q.chosen.map Network.ssid = some n.ssid ∧ q.ActsOn n.ssid

/-- An index has a name among the networks. Where they are too few for it, that is the name
of the connected network, or this one is not among them and the name is the strongest's. -/
def PointsAt (cur : String) (networks : List Network) (index : ℕ) (ssid : String) : Prop :=
  match networks[index]? with
  | some m => m.ssid = ssid
  | none => ssid = cur ∨ cur ∉ names networks ∧ ∃ m, First networks m ∧ m.ssid = ssid

/-- In the new networks, by name, the old index has the name that was selected. -/
def StillPointsAt (p : Panel) (cur : String) (networks : List Network) : Prop :=
  ∀ i n, p.selected = some i → p.networks[i]? = some n → n.ssid ∈ names networks →
    PointsAt cur networks i n.ssid

theorem chosen_eq_some_iff {p : Panel} {n : Network} :
    p.chosen = some n ↔ ∃ i, p.selected = some i ∧ p.networks[i]? = some n :=
  Option.bind_eq_some_iff

theorem list_findCurrentNetwork (p : Panel) (nets : String) :
    (p.findCurrentNetwork nets).1.networks = p.networks ∧
      (p.findCurrentNetwork nets).1.selected = p.selected := by
  have hfold : ∀ (lines : List (List Char)) (found : Panel × Bool),
      (lines.foldl noteNetwork found).1.networks = found.1.networks ∧
        (lines.foldl noteNetwork found).1.selected = found.1.selected := by
    intro lines
    induction lines with
    | nil => exact fun _ => ⟨rfl, rfl⟩
    | cons line lines ih => exact fun found => ih (noteNetwork found line)
  exact hfold _ _

theorem actsOn_of_chosen {p : Panel} {n : Network} (h : p.chosen = some n) :
    p.ActsOn n.ssid := by
  constructor
  · intro fmt nid
    rcases Visit.handleConnect_cases fmt p nid with ⟨hnone, -⟩ | ⟨m, hm, ⟨-, heq⟩ | ⟨-, heq⟩⟩
    · rw [hnone] at h
      cases h
    · rw [heq, ← Option.some.inj (h.symm.trans hm)]
      rfl
    · rw [heq, ← Option.some.inj (h.symm.trans hm)]
  · intro id nets hid
    simp only [handleForget, h, hid, List.head?_cons]

theorem follows_iff {p q : Panel} :
    Follows p q ↔ ∀ n, p.chosen = some n → n.ssid ∈ names q.networks →
      q.chosen.map Network.ssid = some n.ssid := by
  refine ⟨fun h n hn hmem => (h n hn hmem).1, fun h n hn hmem => ⟨h n hn hmem, ?_⟩⟩
  obtain ⟨m, hm, hname⟩ := Option.map_eq_some_iff.mp (h n hn hmem)
  exact hname ▸ actsOn_of_chosen hm

/-- What `rebuild_list` selects in a list of different names. -/
theorem ssid_rebuildList {p : Panel} (hnodup : (names p.networks).Nodup) {ssid : String}
    (h : p.chosen.elim p.curNetwork Network.ssid = ssid) (hmem : ssid ∈ names p.networks) :
    p.rebuildList.chosen.map Network.ssid = some ssid := by
  obtain ⟨n, hn, hname⟩ := List.mem_map.mp hmem
  rw [chosen_of_mem hnodup hn (h.trans hname.symm), Option.map_some, hname]

theorem ssid_rebuildList_iff {p : Panel} (hnames : (names p.networks).Pairwise (· < ·))
    {i : ℕ} (hselected : p.selected = some i) {ssid : String} (hssid : ssid ∈ names p.networks) :
    p.rebuildList.chosen.map Network.ssid = some ssid ↔
      PointsAt p.curNetwork p.networks i ssid := by
  have hnodup := hnames.imp ne_of_lt
  have hchosen : p.chosen = p.networks[i]? := by rw [chosen, hselected, Option.bind_some]
  unfold PointsAt
  cases hget : p.networks[i]? with
  | some m =>
    have hread : p.chosen.elim p.curNetwork Network.ssid = m.ssid := by
      rw [hchosen, hget, Option.elim_some]
    rw [ssid_rebuildList hnodup hread (List.mem_map_of_mem (List.mem_of_getElem? hget)),
      Option.some_inj]
  | none =>
    have hread : p.chosen.elim p.curNetwork Network.ssid = p.curNetwork := by
      rw [hchosen, hget, Option.elim_none]
    by_cases hcur : p.curNetwork ∈ names p.networks
    · rw [ssid_rebuildList hnodup hread hcur, Option.some_inj]
      simp [hcur, eq_comm]
    · have hhead := chosen_of_not_mem (p := p) (by rwa [hread])
      rw [hhead, Option.map_eq_some_iff]
      simp only [head_iff_first hnames hcur, hcur, not_false_eq_true, true_and]
      exact ⟨Or.inr, fun h => h.resolve_left fun heq => hcur (heq ▸ hssid)⟩

/-- The status line has no part in the list and the selection. -/
theorem chosen_showScan (p : Panel) (reply : String) : (p.showScan reply).chosen =
    ({ p with networks := scanned reply } : Panel).rebuildList.chosen := by
  rw [showScan, updateStatus, chosen, chosen]

theorem networks_showScan (p : Panel) (reply : String) :
    (p.showScan reply).networks = sorted p.curNetwork (scanned reply) := by
  rw [showScan, updateStatus, rebuildList]

/-- The list is the one the scan asks for, and the selection goes with the network exactly
where the old index still points at it. -/
theorem selection_kept_iff (p : Panel) (nets reply : String) :
    (Follows p (p.handleScanResults nets reply) ∧
        Lists (p.findCurrentNetwork nets).1.curNetwork reply
          (p.handleScanResults nets reply).networks) ↔
      StillPointsAt p (p.findCurrentNetwork nets).1.curNetwork (scanned reply) := by
  obtain ⟨-, hselected⟩ := list_findCurrentNetwork p nets
  rw [handleScanResults]
  generalize (p.findCurrentNetwork nets).1 = found at hselected
  rw [follows_iff, networks_showScan, chosen_showScan, and_iff_left (lists_sorted _ _)]
  have hmem : ∀ ssid, ssid ∈ names (sorted found.curNetwork (scanned reply)) ↔
      ssid ∈ names (scanned reply) :=
    fun ssid => ((perm_sorted found.curNetwork (scanned reply)).map _).mem_iff
  have hselect : ∀ i (n : Network), p.selected = some i → n.ssid ∈ names (scanned reply) →
      (({ found with networks := scanned reply } : Panel).rebuildList.chosen.map Network.ssid =
          some n.ssid ↔ PointsAt found.curNetwork (scanned reply) i n.ssid) :=
    fun i n hi hn => ssid_rebuildList_iff (p := { found with networks := scanned reply })
      (names_scanned reply) (hselected.trans hi) hn
  constructor
  · intro h i n hi hget hn
    exact (hselect i n hi hn).mp (h n (chosen_eq_some_iff.mpr ⟨i, hi, hget⟩) ((hmem _).mpr hn))
  · intro h n hchosen hn
    obtain ⟨i, hi, hget⟩ := chosen_eq_some_iff.mp hchosen
    exact (hselect i n hi ((hmem _).mp hn)).mpr (h i n hi hget ((hmem _).mp hn))

def twoAround : String :=
  scanHeader ++ "\n02:00:00:00:00:01\t2412\t-80\t[ESS]\tAlpha" ++
    "\n02:00:00:00:00:02\t2437\t-50\t[ESS]\tBeta\n"

theorem scanned_twoAround : scanned twoAround =
    [⟨"Alpha", -80, 2412, "[ESS]"⟩, ⟨"Beta", -50, 2437, "[ESS]"⟩] := by
  decide +kernel

/-- The stronger one of two networks has been selected. -/
def betaSelected : Panel := (start.handleScanResults "" twoAround).handleRow 0

/-- A second scan with the same result selects the other network. -/
theorem alpha_selected_for_beta : ¬ ∀ (p : Panel) (nets reply : String),
    Follows p (p.handleScanResults nets reply) := by
  intro h
  have hbeta := follows_iff.mp (h betaSelected "" twoAround) ⟨"Beta", -50, 2437, "[ESS]"⟩
  rw [betaSelected, handleScanResults, handleScanResults, showScan, showScan,
    scanned_twoAround] at hbeta
  exact absurd (hbeta (by decide) (by decide)) (by decide)

end Panel

end PowerScreen.Wifi
