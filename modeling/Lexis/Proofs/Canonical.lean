import Lexis.Proofs.Ascii
import Lexis.Proofs.Namespaces
import Mathlib.Data.String.Basic

/-!
# Listings of namespaces

A set of namespaces is listed in increasing order of code points, and this is the order of the UTF-8
bytes. What has to be shown for this is that **one** character with a smaller code point has smaller
bytes, and is told apart by them before it ends, whatever follows (`Text.encode_append_lt`): the
first byte grows with the number of bytes, and among characters with the same number of bytes these
are the digits of the code point.

However a set was built, its listing is told by the names that were supplied
(`Namespaces.Lists`), so the order and the number of insertions leave no trace.
-/

namespace Lexis

/-! ### The order of bytes -/

namespace Text

/-- The bytes of a string. -/
private theorem data_toUTF8 (s : String) : s.toUTF8.data.toList = bytes s.toList := by
  rw [String.toUTF8_eq_toByteArray, ← String.utf8Encode_toList, List.utf8Encode,
    List.toList_data_toByteArray]
  rfl

/-- **A smaller character has smaller bytes**, whatever follows. Both have the same number of bytes,
or the first byte of the longer one is greater. -/
theorem encode_append_lt {c d : Char} (h : c < d) (s t : List UInt8) :
    String.utf8EncodeChar c ++ s < String.utf8EncodeChar d ++ t := by
  have hlt : c.val.toNat < d.val.toNat := UInt32.lt_iff_toNat_lt.mp h
  have hd : d.val.toNat < 0x110000 := by
    rcases d.valid with hvalid | hvalid <;> omega
  simp only [String.utf8EncodeChar]
  -- the number of bytes of `d` is that of `c`, or more:
  split_ifs
  all_goals
    simp (disch := omega) only [List.cons_append, List.nil_append, List.cons_lt_cons_iff,
      UInt8.lt_iff_toNat_lt, ← UInt8.toNat_inj, UInt8.toNat_ofNat', Nat.mod_eq_of_lt]
    omega

/-- Texts in the order of their code points are in the order of their bytes: the first character
that differs decides, or one text is the front of the other. -/
private theorem bytes_lt_bytes {s t : List Char} (h : s < t) : bytes s < bytes t := by
  induction s generalizing t with
  | nil =>
    cases t with
    | nil => exact absurd h (List.lt_irrefl [])
    | cons d t =>
      obtain ⟨b, bs, hbytes, -⟩ := exists_first_byte d
      rw [bytes_cons, hbytes]
      exact List.nil_lt_cons b _
  | cons c s ih =>
    cases t with
    | nil => exact absurd h (List.not_lt_nil _)
    | cons d t =>
      rw [bytes_cons, bytes_cons]
      rcases List.cons_lt_cons_iff.mp h with hlt | ⟨rfl, hlt⟩
      · exact encode_append_lt hlt _ _
      · exact List.append_left_lt (ih hlt)

/-- **The order of the bytes is the order of the code points.** Both are total, so one direction is
enough. -/
theorem toUTF8_lt_toUTF8_iff {a b : String} :
    a.toUTF8.data.toList < b.toUTF8.data.toList ↔ a < b := by
  rw [data_toUTF8, data_toUTF8]
  have hmono : ∀ {a b : String}, a < b → bytes a.toList < bytes b.toList := fun h =>
    bytes_lt_bytes (String.lt_iff_toList_lt.mp h)
  refine ⟨fun h => ?_, hmono⟩
  rcases lt_trichotomy a b with hlt | rfl | hgt
  · exact hlt
  · exact absurd h (List.lt_irrefl _)
  · exact absurd (hmono hgt) (List.lt_asymm h)

end Text

/-! ### What a set lists -/

namespace Namespaces

/-- The set lists exactly the names that were supplied, in increasing order of their code points and
of their bytes, and has no other members. -/
structure Lists (ns : Namespaces) (supplied : List String) : Prop where
  increasing : ns.names.Pairwise (· < ·)
  bytewise : ns.names.Pairwise fun a b => a.toUTF8.data.toList < b.toUTF8.data.toList
  mem_names : ∀ n, n ∈ ns.names ↔ n ∈ supplied
  contains : ∀ n, ns.contains n = true ↔ n ∈ supplied

variable {a b : Namespaces} {xs ys : List String}

private theorem lists_of_contains (h : ∀ n, a.contains n = true ↔ n ∈ xs) : a.Lists xs :=
  ⟨a.sorted, a.sorted.imp Text.toUTF8_lt_toUTF8_iff.mpr, fun n => contains_iff.symm.trans (h n), h⟩

private theorem lists_foldl_insert (given added : List String) :
    (added.foldl insert (ofList given)).Lists (given ++ added) := by
  refine lists_of_contains fun n => ?_
  rw [contains_foldl_insert_iff, contains_ofList_iff, List.mem_append, or_comm]

/-- The set of a request lists the names in the settings and those given with it. -/
private theorem lists_namespacesWith (s : Settings) (extra : List String) :
    (s.namespacesWith extra).Lists (s.namespaces ++ extra) :=
  lists_of_contains fun _ => contains_ofList_iff

/-- Sets are the same iff the same names were supplied: their listings are in order, so that members
determine them. -/
private theorem Lists.eq_iff (ha : a.Lists xs) (hb : b.Lists ys) :
    a = b ↔ ∀ n, n ∈ xs ↔ n ∈ ys := by
  constructor
  · rintro rfl n
    rw [← ha.contains, hb.contains]
  · intro h
    refine eq_of_contains_iff fun n => ?_
    rw [ha.contains, hb.contains, h]

private theorem names_inj : a = b ↔ a.names = b.names := by
  refine ⟨congrArg names, fun h => eq_of_contains_iff fun n => ?_⟩
  rw [contains_iff, contains_iff, h]

end Namespaces

/-- **A set of namespaces has one listing**, however it was built: from a list of names with others
added one by one, or from the settings and the names of a request. The listing holds the names that
were supplied, each of them once, in the order of their UTF-8 bytes, which is that of their code
points; these are the names that belong to the set. Sets are the same iff their listings are, which
is so iff the same names were supplied, in any order and any number. -/
theorem namespaces_canonical :
    (∀ a b : String, a.toUTF8.data.toList < b.toUTF8.data.toList ↔ a < b) ∧
      (∀ given added : List String,
        (added.foldl Namespaces.insert (Namespaces.ofList given)).Lists (given ++ added)) ∧
      (∀ (s : Settings) (extra : List String),
        (s.namespacesWith extra).Lists (s.namespaces ++ extra)) ∧
      (∀ a b : Namespaces, a = b ↔ a.names = b.names) ∧
      ∀ (a b : Namespaces) (xs ys : List String), a.Lists xs → b.Lists ys →
        (a = b ↔ ∀ n, n ∈ xs ↔ n ∈ ys) :=
  ⟨fun _ _ => Text.toUTF8_lt_toUTF8_iff, Namespaces.lists_foldl_insert,
    Namespaces.lists_namespacesWith, fun _ _ => Namespaces.names_inj,
    fun _ _ _ _ ha hb => ha.eq_iff hb⟩

/-- Names with characters of one to four bytes, where the one of three bytes would come last by
16-bit units; added in another order and once more to settings, they make the same set. -/
theorem namespaces_canonical_repeated :
    let built := ["z", "\uffff"].foldl Namespaces.insert (.ofList ["😀", "é", "😀"])
    let settings : Settings := ⟨false, 1, ["é", "z"], .text⟩
    built.Lists ["😀", "é", "😀", "z", "\uffff"] ∧
      built.names = ["z", "é", "\uffff", "😀"] ∧
      built = settings.namespacesWith ["\uffff", "😀"] := by
  intro built settings
  obtain ⟨-, hbuilt, hsettings, -, hiff⟩ := namespaces_canonical
  refine ⟨hbuilt _ _, by decide +kernel, ?_⟩
  refine (hiff _ _ _ _ (hbuilt _ _) (hsettings settings _)).mpr fun n => ?_
  simp only [settings, List.mem_append, List.mem_cons, List.not_mem_nil, or_false]
  tauto

end Lexis
