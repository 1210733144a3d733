import Mathlib.Data.List.Forall2
import Mathlib.Data.List.Infix
import Reminders.Mail.Basic

/-!
# Rendering is a single pass

`Template.Cuts` says how a template is cut into pieces, without mention of values: the first pair of
opening braces and the first pair of closing braces after it enclose a key, and what follows is cut
in the same way.  There is exactly one way to cut a template, which is the one that the scanner finds
(`Template.cuts_iff`).  The pieces are the template, cut.  `Template.Piece.Becomes` says what
rendering makes of each of them, and values are not read again.

The scanner does the same twice: it looks for a pair of braces, first opening and then closing ones
(`Template.Scanner.Seeks`).
-/

namespace Reminders

namespace Template

/-! ## Pairs of braces -/

/-- Somewhere a brace follows the same brace. -/
def HasPair (brace : Char) (text : List Char) : Prop := [brace, brace] <:+: text

/-- The first pair of braces in a text, and what is before and after it: no pair begins earlier, not
even with the first brace of this one. -/
structure FirstPair (brace : Char) (text before after : List Char) : Prop where
  text_eq : text = before ++ brace :: brace :: after
  first : ¬ HasPair brace (before ++ [brace])

variable {brace c : Char} {text before after : List Char}

theorem hasPair_cons :
    HasPair brace (c :: text) ↔ (c = brace ∧ text.head? = some brace) ∨ HasPair brace text := by
  have hhead : [brace] <+: text ↔ text.head? = some brace := by
    cases text with
    | nil => simp
    | cons d text => simp [eq_comm]
  rw [HasPair, List.infix_cons_iff, List.cons_prefix_cons, hhead, eq_comm]
  rfl

theorem exists_firstPair (h : HasPair brace text) :
    ∃ before after, FirstPair brace text before after := by
  induction text with
  | nil => simp [HasPair] at h
  | cons c text ih =>
      by_cases hhere : c = brace ∧ text.head? = some brace
      · obtain ⟨rfl, hhead⟩ := hhere
        obtain ⟨after, rfl⟩ := List.head?_eq_some_iff.mp hhead
        exact ⟨[], after, rfl, by simp [HasPair, List.infix_cons_iff]⟩
      · obtain ⟨before, after, rfl, hfirst⟩ := ih ((hasPair_cons.mp h).resolve_left hhere)
        refine ⟨c :: before, after, rfl, fun hpair => ?_⟩
        rcases hasPair_cons.mp hpair with ⟨hc, hhead⟩ | hpair
        · exact hhere ⟨hc, by simpa [List.head?_append] using hhead⟩
        · exact hfirst hpair

/-! ## Cutting a template -/

/-- How a template is cut into pieces. -/
inductive Cuts : List Char → List Piece → Prop where
  /-- Nothing opens a placeholder. -/
  | plain {text : List Char} (hopen : ¬ HasPair '{' text) : Cuts text [.literal text]
  /-- The first placeholder that is opened is not closed. -/
  | unclosed {text before after : List Char} (hopen : FirstPair '{' text before after)
      (hclose : ¬ HasPair '}' after) :
      Cuts text [.literal before, .literal ('{' :: '{' :: after)]
  | placeholder {text before after key rest : List Char} {ps : List Piece}
      (hopen : FirstPair '{' text before after) (hclose : FirstPair '}' after key rest)
      (hrest : Cuts rest ps) : Cuts text (.literal before :: .placeholder key :: ps)

variable {ps : List Piece}

/-- Every template can be cut, since what is left after a placeholder is shorter. -/
theorem exists_cuts (text : List Char) : ∃ ps, Cuts text ps := by
  by_cases hopen : HasPair '{' text
  · obtain ⟨before, after, hopen⟩ := exists_firstPair hopen
    by_cases hclose : HasPair '}' after
    · obtain ⟨key, rest, hclose⟩ := exists_firstPair hclose
      have hshorter : rest.length < text.length := by
        rw [hopen.text_eq, hclose.text_eq]
        simp only [List.length_append, List.length_cons]
        omega
      obtain ⟨ps, hps⟩ := exists_cuts rest
      exact ⟨_, .placeholder hopen hclose hps⟩
    · exact ⟨_, .unclosed hopen hclose⟩
  · exact ⟨_, .plain hopen⟩
termination_by text.length

/-- The pieces are the template, in which nothing is missing and nothing comes twice. -/
theorem Cuts.source (h : Cuts text ps) : ps.flatMap Piece.source = text := by
  induction h with
  | plain => simp [Piece.source]
  | unclosed hopen => simp [Piece.source, hopen.text_eq]
  | placeholder hopen hclose _ ih => simp [Piece.source, ih, hopen.text_eq, hclose.text_eq]

namespace Scanner

/-! ## Looking for a pair of braces -/

/-- The scanner looks for a pair of braces, has perhaps read one of them, and goes on in another way
when it has found the pair.  If it finds none, what it has read is literal after an opening. -/
structure Seeks (brace : Char) (opening : List Char) (seek half : List Char → Scan)
    (found : List Piece → List Char → Scanner) : Prop where
  step_seek : ∀ done read c, step ⟨done, seek read⟩ c =
    if c = brace then ⟨done, half read⟩ else ⟨done, seek (c :: read)⟩
  step_half : ∀ done read c, step ⟨done, half read⟩ c =
    if c = brace then found done read else ⟨done, seek (c :: brace :: read)⟩
  finish_seek : ∀ done read, finish ⟨done, seek read⟩ =
    done.reverse ++ [.literal (opening ++ read.reverse)]
  finish_half : ∀ done read, finish ⟨done, half read⟩ =
    done.reverse ++ [.literal (opening ++ read.reverse ++ [brace])]

theorem seeks_opening : Seeks '{' [] .text .brace
    fun done read => ⟨.literal read.reverse :: done, .key []⟩ where
  step_seek _ _ _ := rfl
  step_half _ _ _ := rfl
  finish_seek _ _ := by simp [finish]
  finish_half _ _ := by simp [finish]

theorem seeks_closing : Seeks '}' ['{', '{'] .key .keyBrace
    fun done read => ⟨.placeholder read.reverse :: done, .text []⟩ where
  step_seek _ _ _ := rfl
  step_half _ _ _ := rfl
  finish_seek _ _ := by simp [finish]
  finish_half _ _ := by simp [finish]

variable {opening : List Char} {seek half : List Char → Scan}
  {found : List Piece → List Char → Scanner}

/-- The pair that is found is the first one.  The two parts are about a scanner that has read no
brace, and about one that has read a brace. -/
theorem Seeks.foldl_found (h : Seeks brace opening seek half found) (done : List Piece)
    (before after read : List Char) :
    (¬ HasPair brace (before ++ [brace]) →
        (before ++ brace :: brace :: after).foldl step ⟨done, seek read⟩ =
          after.foldl step (found done (before.reverse ++ read))) ∧
      (¬ HasPair brace (brace :: (before ++ [brace])) →
        (before ++ brace :: brace :: after).foldl step ⟨done, half read⟩ =
          after.foldl step (found done (before.reverse ++ brace :: read))) := by
  induction before generalizing read with
  | nil =>
      refine ⟨fun _ => ?_, fun hnone => absurd (List.infix_refl _) hnone⟩
      simp [h.step_seek, h.step_half]
  | cons c before ih =>
      rw [List.cons_append, List.cons_append, List.foldl_cons, List.foldl_cons, h.step_seek,
        h.step_half]
      constructor
      · intro hnone
        by_cases hc : c = brace
        · subst hc
          rw [if_pos rfl, (ih read).2 hnone]
          simp
        · rw [if_neg hc, (ih (c :: read)).1 fun hpair => hnone (hasPair_cons.mpr (.inr hpair))]
          simp
      · intro hnone
        have hc : c ≠ brace := fun hc => hnone (hasPair_cons.mpr (.inl ⟨rfl, by simp [hc]⟩))
        have hrest : ¬ HasPair brace (before ++ [brace]) := fun hpair =>
          hnone (hasPair_cons.mpr (.inr (hasPair_cons.mpr (.inr hpair))))
        rw [if_neg hc, (ih (c :: brace :: read)).1 hrest]
        simp

/-- Without a pair everything that is read is literal. -/
theorem Seeks.finish_foldl (h : Seeks brace opening seek half found) (done : List Piece)
    (text read : List Char) :
    (¬ HasPair brace text → (text.foldl step ⟨done, seek read⟩).finish =
        done.reverse ++ [.literal (opening ++ read.reverse ++ text)]) ∧
      (¬ HasPair brace (brace :: text) → (text.foldl step ⟨done, half read⟩).finish =
        done.reverse ++ [.literal (opening ++ read.reverse ++ brace :: text)]) := by
  induction text generalizing read with
  | nil => simp [h.finish_seek, h.finish_half]
  | cons c text ih =>
      rw [List.foldl_cons, List.foldl_cons, h.step_seek, h.step_half]
      constructor
      · intro hnone
        by_cases hc : c = brace
        · subst hc
          rw [if_pos rfl, (ih read).2 hnone]
        · rw [if_neg hc, (ih (c :: read)).1 fun hpair => hnone (hasPair_cons.mpr (.inr hpair))]
          simp
      · intro hnone
        have hc : c ≠ brace := fun hc => hnone (hasPair_cons.mpr (.inl ⟨rfl, by simp [hc]⟩))
        have hrest : ¬ HasPair brace text := fun hpair =>
          hnone (hasPair_cons.mpr (.inr (hasPair_cons.mpr (.inr hpair))))
        rw [if_neg hc, (ih (c :: brace :: read)).1 hrest]
        simp

theorem foldl_opening (h : FirstPair '{' text before after) (done : List Piece) :
    text.foldl step ⟨done, .text []⟩ = after.foldl step ⟨.literal before :: done, .key []⟩ := by
  rw [h.text_eq, (seeks_opening.foldl_found done before after []).1 h.first]
  simp

theorem foldl_closing (h : FirstPair '}' text before after) (done : List Piece) :
    text.foldl step ⟨done, .key []⟩ = after.foldl step ⟨.placeholder before :: done, .text []⟩ := by
  rw [h.text_eq, (seeks_closing.foldl_found done before after []).1 h.first]
  simp

end Scanner

open Scanner

/-- The scanner finds the pieces, after those that it has found already. -/
theorem Cuts.finish_foldl (h : Cuts text ps) (done : List Piece) :
    (text.foldl step ⟨done, .text []⟩).finish = done.reverse ++ ps := by
  induction h generalizing done with
  | plain hopen =>
      rw [(seeks_opening.finish_foldl done _ []).1 hopen]
      simp
  | unclosed hopen hclose =>
      rw [foldl_opening hopen, (seeks_closing.finish_foldl _ _ []).1 hclose]
      simp
  | placeholder hopen hclose _ ih =>
      rw [foldl_opening hopen, foldl_closing hclose, ih]
      simp

/-- There is one way to cut a template. -/
theorem cuts_iff : Cuts text ps ↔ ps = pieces text := by
  have hpieces : ∀ {ps}, Cuts text ps → ps = pieces text := fun h => (h.finish_foldl []).symm
  refine ⟨hpieces, ?_⟩
  rintro rfl
  obtain ⟨ps, hps⟩ := exists_cuts text
  exact hpieces hps ▸ hps

/-! ## Rendering -/

/-- What becomes of a piece: literal text stays as it is, a placeholder becomes the value of its
key, and if that has none it stays as it is written. -/
inductive Piece.Becomes (value? : String → Option String) : Piece → List Char → Prop where
  | literal (text : List Char) : Becomes value? (.literal text) text
  | bound {key : List Char} {value : String} (hvalue : value? (String.ofList key) = some value) :
      Becomes value? (.placeholder key) value.toList
  | unbound {key : List Char} (hvalue : value? (String.ofList key) = none) :
      Becomes value? (.placeholder key) ('{' :: '{' :: (key ++ ['}', '}']))

variable {value? : String → Option String}

theorem Piece.becomes_iff {p : Piece} : p.Becomes value? text ↔ text = fill value? p := by
  constructor
  · intro h
    cases h with
    | literal => rfl
    | bound hvalue => rw [fill, hvalue]
    | unbound hvalue => rw [fill, hvalue, source]
  · rintro rfl
    cases p with
    | literal text => exact .literal text
    | placeholder key =>
        rw [fill]
        cases hvalue : value? (String.ofList key) with
        | none => exact .unbound hvalue
        | some value => exact .bound hvalue

/-- There is one text for each piece. -/
theorem forall₂_becomes_iff {texts : List (List Char)} :
    List.Forall₂ (Piece.Becomes value?) ps texts ↔ texts = ps.map (fill value?) := by
  induction ps generalizing texts with
  | nil => rw [List.forall₂_nil_left_iff, List.map_nil]
  | cons p ps ih => simp [List.forall₂_cons_left_iff, Piece.becomes_iff, ih]

/-- Where no placeholder has a value, the pieces are put together again. -/
theorem flatMap_fill_of_unbound
    (h : ∀ key, .placeholder key ∈ ps → value? (String.ofList key) = none) :
    ps.flatMap (fill value?) = ps.flatMap Piece.source := by
  refine List.flatMap_congr fun p hp => ?_
  cases p with
  | literal text => rfl
  | placeholder key => rw [fill, h key hp]

theorem render_add (templates : Templates) (name body : String) :
    (templates.add name body).render name value? =
      .ok (String.ofList ((pieces body.toList).map (fill value?)).flatten) := by
  rw [← List.flatMap_def]
  simp [Templates.render, Templates.add, render]

end Template

open Template

/-- A template is cut in one way, which does not depend on values, into pieces that put together are
the template.  It is rendered piece by piece, also in one way: a placeholder whose key has a value
becomes that value, whatever braces are in it, and everything else stays as it is.  So without a
value for any of its keys the template itself is what it becomes. -/
theorem template_rendered_in_one_pass (body : String) :
    ∃ ps, (∀ ps', Cuts body.toList ps' ↔ ps' = ps) ∧
      ps.flatMap Piece.source = body.toList ∧
      ∀ (templates : Templates) (name : String) (value? : String → Option String),
        (∃ texts, (∀ texts', List.Forall₂ (Piece.Becomes value?) ps texts' ↔ texts' = texts) ∧
          (templates.add name body).render name value? = .ok (String.ofList texts.flatten)) ∧
        ((∀ key, .placeholder key ∈ ps → value? (String.ofList key) = none) →
          (templates.add name body).render name value? = .ok body) := by
  have hsource := (cuts_iff.mpr (Eq.refl (pieces body.toList))).source
  refine ⟨pieces body.toList, fun ps' => cuts_iff, hsource, fun templates name value? => ?_⟩
  constructor
  · exact ⟨_, fun texts' => forall₂_becomes_iff, render_add templates name body⟩
  · intro hunbound
    rw [render_add, ← List.flatMap_def, flatMap_fill_of_unbound hunbound, hsource,
      String.ofList_toList]

/-- Braces within braces, and two that are left open. -/
def nestedBraces : String :=
  "\x7b\x7bname\x7d\x7d: \x7b\x7b\x7b\x7btitle\x7d\x7d\x7d\x7d \x7b\x7b"

/-- The name looks like a placeholder, and would have a value again, but it is not read again.  There
is a value for the inner key as well, but the outer braces are read first. -/
theorem template_rendered_in_one_pass_nested :
    let title (key : String) : Option String := if key = "title" then some "lesson" else none
    let named (key : String) : Option String :=
      if key = "name" then some "\x7b\x7btitle\x7d\x7d" else title key
    let short := Templates.standard.add "short" nestedBraces
    (∀ key, .placeholder key ∈ pieces nestedBraces.toList → title (String.ofList key) = none) ∧
      short.render "short" title = .ok nestedBraces ∧
      short.render "short" named =
        .ok "\x7b\x7btitle\x7d\x7d: \x7b\x7b\x7b\x7btitle\x7d\x7d\x7d\x7d \x7b\x7b" := by
  intro title named short
  have hpieces : pieces nestedBraces.toList = [.literal [], .placeholder "name".toList,
      .literal ": ".toList, .placeholder "\x7b\x7btitle".toList, .literal "\x7d\x7d ".toList,
      .literal "\x7b\x7b".toList] := by decide
  have hunbound : ∀ key, .placeholder key ∈ pieces nestedBraces.toList →
      title (String.ofList key) = none := by
    intro key hkey
    rw [hpieces] at hkey
    obtain rfl | rfl : key = "name".toList ∨ key = "\x7b\x7btitle".toList := by simpa using hkey
    · decide
    · decide
  obtain ⟨ps, hcuts, -, hrender⟩ := template_rendered_in_one_pass nestedBraces
  obtain rfl := (hcuts _).mp (cuts_iff.mpr rfl)
  obtain ⟨texts, htexts, hnamed⟩ := (hrender Templates.standard "short" named).1
  refine ⟨hunbound, (hrender Templates.standard "short" title).2 hunbound, hnamed.trans ?_⟩
  obtain rfl : [[], "\x7b\x7btitle\x7d\x7d".toList, ": ".toList,
      "\x7b\x7b\x7b\x7btitle\x7d\x7d".toList, "\x7d\x7d ".toList, "\x7b\x7b".toList] = texts := by
    rw [← htexts, hpieces]
    exact .cons (.literal _) (.cons (.bound rfl) (.cons (.literal _) (.cons (.unbound rfl)
      (.cons (.literal _) (.cons (.literal _) .nil)))))
  rfl

end Reminders
