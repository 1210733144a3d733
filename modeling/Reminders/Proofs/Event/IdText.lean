import Reminders.Event.Id

/-!
# The written form of identifiers

An identifier is read back from its written form, and written forms are ordered as the numbers that
they stand for.  So a store may keep identifiers as texts: it finds the same events and lists them
in the same order as a store that compares the numbers.
-/

namespace Reminders

namespace EventId

theorem hexValue?_hexDigit :
    ∀ n, n < 16 → hexValue? (hexDigit n) = some n := by decide

theorem hexDigit_lt_hexDigit :
    ∀ m, m < 16 → ∀ n, n < 16 → m < n → hexDigit m < hexDigit n := by decide

@[simp] theorem length_hexDigits (count n : Nat) : (hexDigits count n).length = count := by
  induction count generalizing n with
  | zero => rfl
  | succ count ih => simp [hexDigits, ih]

theorem ofHexDigits?_append (digits : List Char) (c : Char) :
    ofHexDigits? (digits ++ [c]) =
      (ofHexDigits? digits).bind fun n => (hexValue? c).map (n * 16 + ·) := by
  simp [ofHexDigits?, List.foldlM_append, Option.bind_eq_bind]

/-- Digits are read back if there are enough of them for the number. -/
theorem ofHexDigits?_hexDigits (count n : Nat) (hn : n < Nat.pow 16 count) :
    ofHexDigits? (hexDigits count n) = some n := by
  induction count generalizing n with
  | zero =>
      have h0 : n = 0 := by
        change n < 1 at hn
        omega
      subst n
      rfl
  | succ count ih =>
      have hdiv : n / 16 < Nat.pow 16 count := by
        change n < Nat.pow 16 count * 16 at hn
        omega
      have hmod : n % 16 < 16 := Nat.mod_lt n (by decide)
      rw [hexDigits, ofHexDigits?_append, ih _ hdiv, hexValue?_hexDigit _ hmod]
      simp only [Option.bind_some, Option.map_some, Option.some.injEq]
      omega

/-- Lists of one length are compared at their ends only when they agree before. -/
theorem append_lt_append {xs ys : List Char} {c d : Char} (hlen : xs.length = ys.length)
    (h : xs < ys ∨ (xs = ys ∧ c < d)) : xs ++ [c] < ys ++ [d] := by
  induction xs generalizing ys with
  | nil =>
      obtain rfl : ys = [] := List.eq_nil_of_length_eq_zero hlen.symm
      have hcd : c < d := by simpa using h
      exact List.cons_lt_cons_iff.mpr (Or.inl hcd)
  | cons x xs ih =>
      cases ys with
      | nil => simp at hlen
      | cons y ys =>
          have hlen' : xs.length = ys.length := by simpa using hlen
          rw [List.cons_append, List.cons_append, List.cons_lt_cons_iff]
          rcases h with h | ⟨hxy, hcd⟩
          · rcases List.cons_lt_cons_iff.mp h with hlt | ⟨heq, hlt⟩
            · exact Or.inl hlt
            · exact Or.inr ⟨heq, ih hlen' (Or.inl hlt)⟩
          · obtain ⟨rfl, rfl⟩ := List.cons.inj hxy
            exact Or.inr ⟨rfl, ih rfl (Or.inr ⟨rfl, hcd⟩)⟩

/-- Among numbers with few enough digits the smaller one has the smaller digits. -/
theorem hexDigits_lt_hexDigits (count : Nat) {m n : Nat} (hmn : m < n)
    (hn : n < Nat.pow 16 count) : hexDigits count m < hexDigits count n := by
  induction count generalizing m n with
  | zero =>
      change n < 1 at hn
      omega
  | succ count ih =>
      have hdiv : n / 16 < Nat.pow 16 count := by
        change n < Nat.pow 16 count * 16 at hn
        omega
      apply append_lt_append (by simp)
      rcases Nat.lt_or_ge (m / 16) (n / 16) with hlt | hge
      · exact Or.inl (ih hlt hdiv)
      · have heq : m / 16 = n / 16 := by omega
        refine Or.inr ⟨by rw [heq], ?_⟩
        exact hexDigit_lt_hexDigit _ (Nat.mod_lt m (by decide)) _ (Nat.mod_lt n (by decide))
          (by omega)

/-! ## Hyphens -/

/-- A character put into two lists at one place does not change their order. -/
theorem insert_lt_insert {xs ys s t : List Char} (c : Char) (hlen : xs.length = ys.length)
    (h : xs ++ s < ys ++ t) : xs ++ c :: s < ys ++ c :: t := by
  induction xs generalizing ys with
  | nil =>
      obtain rfl : ys = [] := List.eq_nil_of_length_eq_zero hlen.symm
      exact List.cons_lt_cons_iff.mpr (Or.inr ⟨rfl, h⟩)
  | cons x xs ih =>
      cases ys with
      | nil => simp at hlen
      | cons y ys =>
          have hlen' : xs.length = ys.length := by simpa using hlen
          rw [List.cons_append, List.cons_append, List.cons_lt_cons_iff] at h ⊢
          rcases h with hlt | ⟨heq, hlt⟩
          · exact Or.inl hlt
          · exact Or.inr ⟨heq, ih hlen' hlt⟩

/-- The five groups of digits of an identifier. -/
structure Groups where
  first : List Char
  second : List Char
  third : List Char
  fourth : List Char
  fifth : List Char
  lengths : first.length = 8 ∧ second.length = 4 ∧ third.length = 4 ∧ fourth.length = 4 ∧
    fifth.length = 12

namespace Groups

/-- All digits in a row. -/
def digits (g : Groups) : List Char :=
  g.first ++ (g.second ++ (g.third ++ (g.fourth ++ g.fifth)))

/-- The groups with hyphens between. -/
def written (g : Groups) : List Char :=
  g.first ++ '-' :: (g.second ++ '-' :: (g.third ++ '-' :: (g.fourth ++ '-' :: g.fifth)))

theorem exists_of_length {ds : List Char} (h : ds.length = 32) :
    ∃ g : Groups, ds = g.digits := by
  refine ⟨⟨ds.take 8, (ds.drop 8).take 4, (ds.drop 12).take 4, (ds.drop 16).take 4, ds.drop 20,
    by simp [h]⟩, ?_⟩
  simp only [digits]
  rw [← List.drop_drop (i := 4) (j := 16), List.take_append_drop,
    ← List.drop_drop (i := 4) (j := 12), List.take_append_drop,
    ← List.drop_drop (i := 4) (j := 8), List.take_append_drop, List.take_append_drop]

theorem hyphenate_digits (g : Groups) : hyphenate g.digits = g.written := by
  obtain ⟨h1, h2, h3, h4, h5⟩ := g.lengths
  simp [hyphenate, digits, written, List.drop_append, List.drop_eq_nil_of_le, h1, h2, h3, h4]

theorem length_written (g : Groups) : g.written.length = 36 := by
  obtain ⟨h1, h2, h3, h4, h5⟩ := g.lengths
  simp [written, h1, h2, h3, h4, h5]

/-- Hyphens do not change the order of digits. -/
theorem written_lt_written {g k : Groups} (h : g.digits < k.digits) : g.written < k.written := by
  obtain ⟨g1, g2, g3, g4, -⟩ := g.lengths
  obtain ⟨k1, k2, k3, k4, -⟩ := k.lengths
  -- The hyphens are put in from the last one on, so that each stands before a known part.
  have h4 : (g.first ++ g.second ++ g.third ++ g.fourth) ++ '-' :: g.fifth <
      (k.first ++ k.second ++ k.third ++ k.fourth) ++ '-' :: k.fifth :=
    insert_lt_insert '-' (by simp [g1, g2, g3, g4, k1, k2, k3, k4]) (by simpa [digits] using h)
  have h3 : (g.first ++ g.second ++ g.third) ++ '-' :: (g.fourth ++ '-' :: g.fifth) <
      (k.first ++ k.second ++ k.third) ++ '-' :: (k.fourth ++ '-' :: k.fifth) :=
    insert_lt_insert '-' (by simp [g1, g2, g3, k1, k2, k3]) (by simpa using h4)
  have h2 : (g.first ++ g.second) ++ '-' :: (g.third ++ '-' :: (g.fourth ++ '-' :: g.fifth)) <
      (k.first ++ k.second) ++ '-' :: (k.third ++ '-' :: (k.fourth ++ '-' :: k.fifth)) :=
    insert_lt_insert '-' (by simp [g1, g2, k1, k2]) (by simpa using h3)
  exact insert_lt_insert '-' (by rw [g1, k1]) (by simpa using h2)

theorem unhyphenate?_written (g : Groups) : unhyphenate? g.written = some g.digits := by
  obtain ⟨h1, h2, h3, h4, h5⟩ := g.lengths
  have hdigits : g.written.take 8 ++ (g.written.drop 9).take 4 ++ (g.written.drop 14).take 4 ++
      (g.written.drop 19).take 4 ++ g.written.drop 24 = g.digits := by
    simp [digits, written, List.drop_append, List.drop_eq_nil_of_le, h1, h2, h3, h4]
  simp only [unhyphenate?, hdigits, g.length_written, g.hyphenate_digits, and_self, if_true]

/-- A written identifier does not begin like one with a name space in front. -/
theorem take_written_ne (g : Groups) :
    (g.written.take 9).map Char.toLower ≠ "urn:uuid:".toList := by
  obtain ⟨h1, -⟩ := g.lengths
  have htake : g.written.take 9 = g.first ++ ['-'] := by
    simp [written, List.take_append, List.take_of_length_le, h1]
  intro h
  rw [htake, List.map_append] at h
  have hlast := congrArg (fun s => s.getLast?) h
  simp at hlast

theorem digits?_written (g : Groups) : digits? g.written = some g.digits := by
  have hlen := g.length_written
  simp only [digits?, hlen, g.take_written_ne, g.unhyphenate?_written]
  simp

end Groups

/-! ## Whole identifiers -/

/-- The digits of an identifier are those of its number. -/
theorem exists_groups (id : EventId) :
    ∃ g : Groups, g.digits = hexDigits 32 id.value ∧ id.text = String.ofList g.written := by
  obtain ⟨g, hg⟩ := Groups.exists_of_length (length_hexDigits 32 id.value)
  refine ⟨g, hg.symm, ?_⟩
  rw [text, hg, g.hyphenate_digits]

theorem value_lt_pow (id : EventId) : id.value < Nat.pow 16 32 :=
  Nat.lt_of_lt_of_eq id.bounded (by decide)

/-- The written form of an identifier is read back. -/
theorem parse?_text (id : EventId) : parse? id.text = some id := by
  obtain ⟨g, hdigits, htext⟩ := exists_groups id
  have hvalue := ofHexDigits?_hexDigits 32 id.value id.value_lt_pow
  rw [← hdigits] at hvalue
  simp [parse?, htext, g.digits?_written, hvalue, ofNat?, id.bounded]

theorem text_inj {a b : EventId} (h : a.text = b.text) : a = b := by
  have hread := congrArg parse? h
  simpa [parse?_text] using hread

theorem text_lt_text {a b : EventId} (h : a.value < b.value) : a.text < b.text := by
  obtain ⟨g, hg, ha⟩ := exists_groups a
  obtain ⟨k, hk, hb⟩ := exists_groups b
  have hdigits : g.digits < k.digits := by
    rw [hg, hk]
    exact hexDigits_lt_hexDigits 32 h b.value_lt_pow
  have hwritten := Groups.written_lt_written hdigits
  rw [ha, hb]
  change (String.ofList g.written).toList < (String.ofList k.written).toList
  simpa using hwritten

/-- Written identifiers are ordered as their numbers. -/
theorem text_le_text_iff {a b : EventId} : a.text ≤ b.text ↔ a.value ≤ b.value := by
  constructor
  · intro h
    exact Nat.le_of_not_lt fun hlt => h (text_lt_text hlt)
  · intro h hlt
    rcases Nat.lt_or_eq_of_le h with hval | hval
    · exact List.lt_asymm (text_lt_text hval) hlt
    · obtain rfl : a = b := EventId.ext hval
      exact List.lt_irrefl _ hlt

end EventId

end Reminders
