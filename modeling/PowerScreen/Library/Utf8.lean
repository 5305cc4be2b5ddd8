import Mathlib.Tactic

/-! # Texts as octets

The octets a text is sent as. A character below 128 is one octet, its own number, and
different texts are sent differently.
-/
namespace PowerScreen.Library

def utf8 (cs : List Char) : List UInt8 := cs.flatMap String.utf8EncodeChar

@[simp] theorem utf8_nil : utf8 [] = [] := rfl

theorem utf8_append (cs ds : List Char) : utf8 (cs ++ ds) = utf8 cs ++ utf8 ds :=
  List.flatMap_append

theorem utf8EncodeChar_of_lt {c : Char} (h : c.toNat < 128) :
    String.utf8EncodeChar c = [UInt8.ofNat c.toNat] := by
  apply String.utf8EncodeChar_eq_singleton
  rw [Char.utf8Size, if_pos]
  exact Nat.le_of_lt_succ h

theorem utf8_cons_of_lt {c : Char} (h : c.toNat < 128) (cs : List Char) :
    utf8 (c :: cs) = UInt8.ofNat c.toNat :: utf8 cs := by
  rw [utf8, List.flatMap_cons, utf8EncodeChar_of_lt h]
  rfl

theorem utf8_inj {cs ds : List Char} : utf8 cs = utf8 ds ↔ cs = ds := by
  refine ⟨fun h => ?_, fun h => h ▸ rfl⟩
  have henc : cs.utf8Encode = ds.utf8Encode := congrArg List.toByteArray h
  rw [← String.toByteArray_ofList, ← String.toByteArray_ofList, String.toByteArray_inj] at henc
  exact String.ofList_injective henc

/-- Characters below 128, each its own octet. -/
theorem utf8_of_forall_lt {cs : List Char} (h : ∀ c ∈ cs, c.toNat < 128) :
    utf8 cs = cs.map fun c => UInt8.ofNat c.toNat := by
  induction cs with
  | nil => rfl
  | cons c cs ih =>
    rw [utf8_cons_of_lt (h c List.mem_cons_self), List.map_cons,
      ih fun d hd => h d (List.mem_cons_of_mem c hd)]

theorem not_mem_utf8 {cs : List Char} (h : ∀ c ∈ cs, c.toNat < 128) {d : Char}
    (hd : d.toNat < 128) (hmem : d ∉ cs) : UInt8.ofNat d.toNat ∉ utf8 cs := by
  rw [utf8_of_forall_lt h]
  intro hin
  obtain ⟨c, hc, heq⟩ := List.mem_map.mp hin
  have hsize : 128 ≤ UInt8.size := by decide
  have hnat := congrArg UInt8.toNat heq
  rw [UInt8.toNat_ofNat_of_lt' ((h c hc).trans_le hsize),
    UInt8.toNat_ofNat_of_lt' (hd.trans_le hsize)] at hnat
  exact hmem (Char.toNat_inj.mp hnat ▸ hc)

end PowerScreen.Library
