import PowerScreen.Console.Panel
import PowerScreen.Library.Run

/-! # Shortcuts after connecting again

Every connection asks for the commands that Klipper knows, and every answer adds to the list of
the one before: it is right as long as no answer comes after one that carried commands.
-/
namespace PowerScreen.Console
open Library Library.Run

/-- What a connection delivers: the history in the state, which can be read, and the answer to
`printer.gcode.help`, where Klipper's is an object from commands to texts. -/
structure Delivery where
  dbHistory : Json
  reply : Json
  readable : dbHistory = .null ∨ ∃ history, readStrings dbHistory = some history
  sorted : reply.Sorted
  help : ∀ result, reply.get? "result" = some result → ∃ ms, result = .obj ms

def Delivery.succeeded (d : Delivery) : Bool := d.reply.contains "result"

def Panel.connect (p : Panel) (d : Delivery) : Panel :=
  (p.handleMacros d.dbHistory d.reply).getD p

/-- The commands of the last answer that is not an error. -/
def lastCommands (ds : List Delivery) : List String :=
  (((ds.filter Delivery.succeeded).getLast?).map fun d => commands d.reply).getD []

/-- The list holds the commands of the last answer, each once, and those that match what is typed
come behind the history. -/
structure Offers (p : Panel) (ds : List Delivery) : Prop where
  once : p.allMacros.Nodup
  exact : ∀ c, c ∈ p.allMacros ↔ c ∈ lastCommands ds
  chips : ∀ typed, ∃ cs, p.chips typed = (p.history.filter (chipMatches typed)).take 16 ++ cs ∧
    cs.Nodup ∧ ∀ c ∈ cs, c ∈ lastCommands ds ∧ chipMatches typed c

theorem handleMacros_isSome (p : Panel) (d : Delivery) :
    ∃ history, p.handleMacros d.dbHistory d.reply =
      some { p with history := history, allMacros := p.allMacros ++ commands d.reply } := by
  rw [Panel.handleMacros]
  rcases d.readable with hnull | ⟨history, hread⟩
  · exact ⟨p.history, by rw [if_pos hnull]; rfl⟩
  · by_cases hnull : d.dbHistory = .null
    · exact ⟨p.history, by rw [if_pos hnull]; rfl⟩
    · exact ⟨history, by rw [if_neg hnull, hread]; rfl⟩

theorem allMacros_connect (p : Panel) (d : Delivery) :
    (p.connect d).allMacros = p.allMacros ++ commands d.reply := by
  obtain ⟨history, h⟩ := handleMacros_isSome p d
  rw [Panel.connect, h, Option.getD_some]

/-- All answers, one behind the other. -/
theorem allMacros_run (p : Panel) (ds : List Delivery) :
    (run Panel.connect p ds).allMacros = p.allMacros ++ ds.flatMap fun d => commands d.reply := by
  induction ds generalizing p with
  | nil => rw [run_nil, List.flatMap_nil, List.append_nil]
  | cons d ds ih =>
    rw [run_cons, ih, allMacros_connect, List.flatMap_cons, List.append_assoc]

theorem nodup_commands (d : Delivery) : (commands d.reply).Nodup := by
  rw [commands]
  cases hresult : d.reply.get? "result" with
  | none => exact List.nodup_nil
  | some result =>
    obtain ⟨ms, rfl⟩ := d.help result hresult
    have hsorted := d.sorted.of_mem (Assoc.mem_of_lookup hresult)
    exact hsorted.members.nodup

theorem commands_of_failed {d : Delivery} (h : d.succeeded = false) : commands d.reply = [] := by
  rw [Delivery.succeeded, Json.contains, Option.isSome_eq_false_iff, Option.isNone_iff_eq_none] at h
  rw [commands, h]
  rfl

/-- The chips are right where the list is. -/
theorem chips_of_exact {p : Panel} {ds : List Delivery} (honce : p.allMacros.Nodup)
    (hexact : ∀ c, c ∈ p.allMacros ↔ c ∈ lastCommands ds) (typed : String) :
    ∃ cs, p.chips typed = (p.history.filter (chipMatches typed)).take 16 ++ cs ∧
      cs.Nodup ∧ ∀ c ∈ cs, c ∈ lastCommands ds ∧ chipMatches typed c := by
  refine ⟨_, List.take_append, (honce.filter _).sublist (List.take_sublist _ _), fun c hc => ?_⟩
  obtain ⟨hin, hmatch⟩ := List.mem_filter.mp (List.mem_of_mem_take hc)
  exact ⟨(hexact c).mp hin, hmatch⟩

theorem flatMap_commands_filter (ds : List Delivery) :
    (ds.flatMap fun d => commands d.reply) =
      (ds.filter Delivery.succeeded).flatMap fun d => commands d.reply := by
  induction ds with
  | nil => rfl
  | cons d ds ih =>
    rw [List.flatMap_cons, List.filter_cons]
    split_ifs with hd
    · rw [List.flatMap_cons, ih]
    · rw [commands_of_failed (Bool.not_eq_true _ ▸ hd), List.nil_append, ih]

/-- No answer comes after one that carried commands. -/
def CommandsOnce (ds : List Delivery) : Prop :=
  ds.Pairwise fun earlier later => later.succeeded → commands earlier.reply = []

/-- The list at one moment: right iff only the last answer carried commands. -/
theorem offers_iff (ds : List Delivery) : Offers (run Panel.connect Panel.new ds) ds ↔
    ∀ d ∈ (ds.filter Delivery.succeeded).dropLast, commands d.reply = [] := by
  have hall : (run Panel.connect Panel.new ds).allMacros =
      (ds.filter Delivery.succeeded).flatMap fun d => commands d.reply := by
    rw [allMacros_run, flatMap_commands_filter]
    rfl
  have hexact : Offers (run Panel.connect Panel.new ds) ds ↔
      (run Panel.connect Panel.new ds).allMacros.Nodup ∧
        ∀ c, c ∈ (run Panel.connect Panel.new ds).allMacros ↔ c ∈ lastCommands ds :=
    ⟨fun h => ⟨h.once, h.exact⟩, fun h => ⟨h.1, h.2, chips_of_exact h.1 h.2⟩⟩
  rw [hexact, hall, lastCommands]
  rcases List.eq_nil_or_concat' (ds.filter Delivery.succeeded) with hnil | ⟨init, last, hinit⟩
  · simp [hnil]
  · rw [hinit, List.flatMap_append, List.flatMap_singleton, List.getLast?_concat, Option.map_some,
      Option.getD_some, List.dropLast_concat]
    constructor
    · rintro ⟨hnodup, hmem⟩ d hd
      refine List.eq_nil_iff_forall_not_mem.mpr fun c hc => ?_
      have hin : c ∈ init.flatMap fun d => commands d.reply := List.mem_flatMap.mpr ⟨d, hd, hc⟩
      have hlast := (hmem c).mp (List.mem_append_left _ hin)
      exact (List.nodup_append.mp hnodup).2.2 c hin c hlast rfl
    · intro h
      have hempty : (init.flatMap fun d => commands d.reply) = [] := by
        rw [List.flatMap_eq_nil_iff]
        exact h
      rw [hempty, List.nil_append]
      exact ⟨nodup_commands last, fun c => Iff.rfl⟩

theorem commandsOnce_iff (ds : List Delivery) : CommandsOnce ds ↔
    ∀ ds', ds' <+: ds → ∀ d ∈ (ds'.filter Delivery.succeeded).dropLast, commands d.reply = [] := by
  constructor
  · intro h ds' hpre d hd
    have hpair := (h.sublist hpre.sublist).sublist (List.filter_sublist (p := Delivery.succeeded))
    rcases List.eq_nil_or_concat' (ds'.filter Delivery.succeeded) with hnil | ⟨init, last, hinit⟩
    · rw [hnil] at hd
      cases hd
    · rw [hinit, List.dropLast_concat] at hd
      have hlast : last ∈ ds'.filter Delivery.succeeded := by simp [hinit]
      rw [hinit, List.pairwise_append] at hpair
      exact hpair.2.2 d hd last List.mem_cons_self (List.mem_filter.mp hlast).2
  · intro h
    induction ds using List.reverseRecOn with
    | nil => exact List.Pairwise.nil
    | append_singleton ds last ih =>
      refine List.pairwise_append.mpr ⟨ih fun ds' hpre => h ds' (hpre.trans (List.prefix_append _ _)),
        List.pairwise_singleton _ _, fun d hd last' hlast' => ?_⟩
      rw [List.mem_singleton.mp hlast']
      intro hsucceeded
      have hlist := h _ List.prefix_rfl
      rw [List.filter_append, List.filter_singleton, hsucceeded, cond_true, List.dropLast_concat] at hlist
      cases hd' : d.succeeded with
      | true => exact hlist d (List.mem_filter.mpr ⟨hd, hd'⟩)
      | false => exact commands_of_failed hd'

/-- After every connection, for every sequence of what they deliver. -/
theorem shortcuts_exact_iff (ds : List Delivery) :
    (∀ ds', ds' <+: ds → Offers (run Panel.connect Panel.new ds') ds') ↔ CommandsOnce ds := by
  rw [commandsOnce_iff]
  exact forall_congr' fun ds' => imp_congr_right fun _ => offers_iff ds'

/-- An answer that knows one command. -/
def helpOnce : Delivery where
  dbHistory := .null
  reply := .obj [("result", .obj [("G28", .str "Home")])]
  readable := Or.inl rfl
  sorted := by decide
  help := by
    intro result h
    cases h
    exact ⟨_, rfl⟩

/-- A second connection offers the same command twice. -/
theorem command_offered_twice :
    ¬ Offers (run Panel.connect Panel.new [helpOnce, helpOnce]) [helpOnce, helpOnce] := by
  intro h
  exact absurd h.once (by decide)

end PowerScreen.Console
