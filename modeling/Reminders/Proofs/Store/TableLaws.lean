import Reminders.Proofs.Store.Columns

/-!
# The laws of the store in a database

A table that was filled through its accesses keeps storable events, and every access does to them
what it is asked or breaks down.  It breaks down if an instant or a span is no word, or if the
identifier of a new event is taken.
-/

namespace Reminders

namespace Table

/-- The events that are kept, if all of them can be read. -/
def contents (t : Table) : Except StoreError (List Event) := t.rows.mapM Row.toEvent

/-- The rows are those of these events. -/
structure Holds (t : Table) (es : List Event) : Prop where
  rows : t.rows = es.map Event.row
  storable : ∀ e ∈ es, e.Storable
  distinct : Events.Distinct es

/-- The events of the rows that can be read. -/
def readable (t : Table) : List Event := t.rows.filterMap fun r => r.toEvent.toOption

/-- Whether a search accepts the row of an event. -/
def accepts (q : Search) (e : Event) : Bool :=
  match RowSearch.ofSearch q with
  | .ok c => c.accepts e.row
  | .error _ => (q.mapInstants Instant.kept).accepts e

theorem holds_empty : Holds {} [] := ⟨rfl, by simp, List.nodup_nil⟩

/-! ## Reading events back -/

theorem toEvent_of_storable {e : Event} (h : e.Storable) : e.row.toEvent = .ok e := by
  rw [Event.toEvent_row, Event.kept_eq_self h]

theorem Holds.readable_eq {t : Table} {es : List Event} (h : t.Holds es) : t.readable = es := by
  rw [readable, h.rows, List.filterMap_map]
  calc
    es.filterMap _ = es.filterMap some := by
      apply List.filterMap_congr
      intro e he
      simp only [Function.comp, toEvent_of_storable (h.storable e he)]
      rfl
    _ = es := List.filterMap_some

theorem mapM_toEvent {es : List Event} (h : ∀ e ∈ es, e.Storable) :
    (es.map Event.row).mapM Row.toEvent = .ok es := by
  induction es with
  | nil => rfl
  | cons e es ih =>
      have he := toEvent_of_storable (h e List.mem_cons_self)
      have hes := ih fun f hf => h f (List.mem_cons_of_mem e hf)
      rw [List.map_cons, List.mapM_cons, he, hes]
      rfl

theorem Holds.contents_eq {t : Table} {es : List Event} (h : t.Holds es) :
    t.contents = .ok es := by
  rw [contents, h.rows, mapM_toEvent h.storable]

/-- Reading rows leaves the table alone. -/
theorem readAll_exec (rs : List Row) (t : Table) :
    (rs.mapM fun r => (liftM r.toEvent : StoreM Table Event)).exec t =
      (rs.mapM Row.toEvent, t) := by
  induction rs with
  | nil => rfl
  | cons r rs ih =>
      rw [List.mapM_cons, List.mapM_cons]
      cases r.toEvent with
      | error e => rfl
      | ok e =>
          have hread : (liftM (Except.ok e : Except StoreError Event) :
              StoreM Table Event).exec t = (.ok e, t) := rfl
          rw [StoreM.exec_bind_ok hread]
          cases hrs : rs.mapM Row.toEvent with
          | error cause =>
              rw [hrs] at ih
              exact StoreM.exec_bind_error ih
          | ok es =>
              rw [hrs] at ih
              exact StoreM.exec_bind_ok ih

/-! ## What the accesses do -/

theorem add_exec (now : Instant) (id : EventId) (d : Draft) (t : Table) :
    (Table.add now id d).exec t = match d.check with
      | .error cause => (.error (.invalid cause), t)
      | .ok () => match Row.ofEvent (d.toEvent id now) with
        | .error e => (.error e, t)
        | .ok r => match t.insert r with
          | .error e => (.error e, t)
          | .ok t' => (.ok (d.toEvent id now), t') := by
  unfold Table.add
  cases d.check with
  | error cause => rfl
  | ok _ =>
      dsimp only
      cases Row.ofEvent (d.toEvent id now) with
      | error e => rfl
      | ok r =>
          change StoreM.exec (do
            let t' ← liftM (t.insert r)
            set t'
            return d.toEvent id now) t = match t.insert r with
              | Except.error e => (Except.error e, t)
              | Except.ok t' => (Except.ok (d.toEvent id now), t')
          cases t.insert r with
          | error e => rfl
          | ok t' => rfl

theorem update_exec (now : Instant) (p : Patch) (q : Search) (t : Table) :
    (Table.update now p q).exec t = match p.check with
      | .error cause => (.error (.invalid cause), t)
      | .ok () => match RowPatch.ofPatch now p with
        | .error e => (.error e, t)
        | .ok v => match RowSearch.ofSearch q with
          | .error e => (.error e, t)
          | .ok c => (.ok (t.rows.countP c.accepts),
              ⟨t.rows.map fun r => if c.accepts r then v.apply r else r⟩) := by
  unfold Table.update
  cases p.check with
  | error cause => rfl
  | ok _ =>
      cases RowPatch.ofPatch now p with
      | error e => rfl
      | ok v =>
          cases RowSearch.ofSearch q with
          | error e => rfl
          | ok c => rfl

theorem delete_exec (q : Search) (t : Table) :
    (Table.delete q).exec t = match RowSearch.ofSearch q with
      | .error e => (.error e, t)
      | .ok c => (.ok (t.rows.countP c.accepts), ⟨t.rows.filter (! c.accepts ·)⟩) := by
  unfold Table.delete
  cases RowSearch.ofSearch q with
  | error e => rfl
  | ok c => rfl

theorem list_exec (q : Search) (t : Table) :
    (Table.list q).exec t = match RowSearch.ofSearch q with
      | .error e => (.error e, t)
      | .ok c => ((t.select c).mapM Row.toEvent, t) := by
  unfold Table.list
  cases RowSearch.ofSearch q with
  | error e => rfl
  | ok c => exact readAll_exec (t.select c) t

/-! ## What the accesses do to the events -/

variable {t : Table} {es : List Event}

theorem accepts_of_ok {q : Search} (hq : RowSearch.ofSearch q = .ok q.columns) (e : Event) :
    accepts q e = q.columns.accepts e.row := by
  rw [accepts, hq]

theorem accepts_eq_of_exact {q : Search} {e : Event} (he : e.Storable)
    (hleap : ∀ f ∈ q.during, f.range.start.isLeap = false) :
    accepts q e = (q.mapInstants Instant.kept).accepts e := by
  rcases Search.ofSearch_keeps q with ⟨hfits, hq⟩ | ⟨_, _, hq⟩
  · rw [accepts_of_ok hq, Search.accepts_row hfits hleap he]
  · rw [accepts, hq]

theorem Holds.countP_rows (h : t.Holds es) {q : Search}
    (hq : RowSearch.ofSearch q = .ok q.columns) :
    t.rows.countP q.columns.accepts = es.countP (accepts q) := by
  rw [h.rows, List.countP_map]
  apply List.countP_congr
  intro e _
  rw [accepts_of_ok hq]
  rfl

theorem Holds.insert {e : Event} (h : t.Holds es) (hfits : e.Fits)
    (hduration : 0 ≤ e.duration.nanos) (hnotify : 0 ≤ e.notifyTerm.nanos)
    (hfree : t.rows.any (·.id == e.row.id) = false) :
    Holds ⟨t.rows ++ [e.row]⟩ (Events.insert es e.kept) := by
  have hother : es.filter (·.id != e.kept.id) = es := by
    rw [List.filter_eq_self]
    intro f hf
    have hne : f.row.id ≠ e.row.id := by
      have hmem : f.row ∈ t.rows := h.rows ▸ List.mem_map_of_mem hf
      simpa using List.any_eq_false.mp hfree f.row hmem
    rw [bne_iff_ne]
    intro hid
    exact hne (congrArg EventId.text hid)
  refine ⟨?_, ?_, h.distinct.insert e.kept⟩
  · rw [Events.insert, hother, List.map_append, h.rows, List.map_singleton, Event.row_kept hfits]
  · intro f hf
    rw [Events.insert, hother, List.mem_append, List.mem_singleton] at hf
    rcases hf with hf | rfl
    · exact h.storable f hf
    · exact Event.storable_kept hfits hduration hnotify

theorem Holds.add_cases (h : t.Holds es) {now : Instant} {id : EventId} {d : Draft}
    (hd : d.check = .ok ()) :
    (Table.add now id d).BreaksDown t ∨
      ∃ t' : Table, (Table.add now id d).exec t = (.ok (d.toEvent id now), t') ∧
        t'.Holds (Events.insert es (d.toEvent id now).kept) := by
  obtain ⟨hduration, hnotify⟩ := Draft.nonneg_of_check hd
  rcases Event.ofEvent_keeps (d.toEvent id now) with ⟨hfits, hrow⟩ | ⟨e, he, hrow⟩
  · cases hfree : t.rows.any (·.id == (d.toEvent id now).row.id) with
    | true =>
        refine Or.inl ⟨.database "UNIQUE constraint failed: events.id", rfl, ?_⟩
        have hinsert : t.insert (d.toEvent id now).row =
            .error (.database "UNIQUE constraint failed: events.id") := by
          rw [Table.insert, hfree, if_pos rfl]
        rw [add_exec, hd, hrow]
        simp only [hinsert]
    | false =>
        refine Or.inr ⟨⟨t.rows ++ [(d.toEvent id now).row]⟩, ?_,
          h.insert hfits hduration hnotify hfree⟩
        have hinsert : t.insert (d.toEvent id now).row =
            .ok ⟨t.rows ++ [(d.toEvent id now).row]⟩ := by
          rw [Table.insert, hfree, if_neg Bool.false_ne_true]
        rw [add_exec, hd, hrow]
        simp only [hinsert]
  · refine Or.inl ⟨e, he, ?_⟩
    rw [add_exec, hd, hrow]

theorem Holds.change (h : t.Holds es) {now : Instant} {p : Patch} {q : Search}
    (hp : p.check = .ok ()) (hfits : p.Fits now) (hq : RowSearch.ofSearch q = .ok q.columns) :
    Holds ⟨t.rows.map fun r => if q.columns.accepts r then (p.columns now).apply r else r⟩
      (Events.change es now.kept (p.mapInstants Instant.kept) (accepts q)) := by
  refine ⟨?_, ?_, h.distinct.change _ _ _⟩
  · rw [h.rows, Events.change, List.map_map, List.map_map]
    apply List.map_congr_left
    intro e _
    simp only [Function.comp, accepts_of_ok hq]
    split
    · exact Patch.apply_row hfits e
    · rfl
  · intro f hf
    obtain ⟨e, he, rfl⟩ := List.mem_map.mp hf
    split
    · exact Patch.storable_apply hp hfits (h.storable e he)
    · exact h.storable e he

theorem Holds.update_cases (h : t.Holds es) {now : Instant} {p : Patch} {q : Search}
    (hp : p.check = .ok ()) :
    (Table.update now p q).BreaksDown t ∨
      ∃ t' : Table, (Table.update now p q).exec t = (.ok (es.countP (accepts q)), t') ∧
        t'.Holds (Events.change es now.kept (p.mapInstants Instant.kept) (accepts q)) := by
  rcases Patch.ofPatch_keeps now p with ⟨hfits, hv⟩ | ⟨e, he, hv⟩
  · rcases Search.ofSearch_keeps q with ⟨-, hq⟩ | ⟨e, he, hq⟩
    · refine Or.inr ⟨_, ?_, h.change hp hfits hq⟩
      rw [update_exec, hp, hv, hq, ← h.countP_rows hq]
    · refine Or.inl ⟨e, he, ?_⟩
      rw [update_exec, hp, hv, hq]
  · refine Or.inl ⟨e, he, ?_⟩
    rw [update_exec, hp, hv]

theorem Holds.remove (h : t.Holds es) {q : Search} (hq : RowSearch.ofSearch q = .ok q.columns) :
    Holds ⟨t.rows.filter (! q.columns.accepts ·)⟩ (Events.remove es (accepts q)) := by
  refine ⟨?_, ?_, h.distinct.remove _⟩
  · rw [h.rows, Events.remove, List.filter_map]
    apply congrArg (List.map Event.row)
    apply List.filter_congr
    intro e _
    rw [accepts_of_ok hq]
    rfl
  · intro f hf
    exact h.storable f (List.mem_filter.mp hf).1

theorem Holds.delete_cases (h : t.Holds es) (q : Search) :
    (Table.delete q).BreaksDown t ∨
      ∃ t' : Table, (Table.delete q).exec t = (.ok (es.countP (accepts q)), t') ∧
        t'.Holds (Events.remove es (accepts q)) := by
  rcases Search.ofSearch_keeps q with ⟨-, hq⟩ | ⟨e, he, hq⟩
  · refine Or.inr ⟨_, ?_, h.remove hq⟩
    rw [delete_exec, hq, ← h.countP_rows hq]
  · refine Or.inl ⟨e, he, ?_⟩
    rw [delete_exec, hq]

theorem Holds.select_eq (h : t.Holds es) {q : Search}
    (hq : RowSearch.ofSearch q = .ok q.columns) :
    t.select q.columns = (Events.select es (accepts q)).map Event.row := by
  have hfilter : t.rows.filter q.columns.accepts = (es.filter (accepts q)).map Event.row := by
    rw [h.rows, List.filter_map]
    apply congrArg (List.map Event.row)
    apply List.filter_congr
    intro e _
    rw [accepts_of_ok hq]
    rfl
  rw [Table.select, hfilter, Events.select, List.map_mergeSort]
  intro a ha b hb
  have ha' := h.storable a (List.mem_filter.mp ha).1
  have hb' := h.storable b (List.mem_filter.mp hb).1
  exact (Event.listedBefore_row ha' hb').symm

theorem Holds.list_cases (h : t.Holds es) (q : Search) :
    (Table.list q).BreaksDown t ∨
      (Table.list q).exec t = (.ok (Events.select es (accepts q)), t) := by
  rcases Search.ofSearch_keeps q with ⟨-, hq⟩ | ⟨e, he, hq⟩
  · refine Or.inr ?_
    rw [list_exec, hq]
    simp only [h.select_eq hq]
    rw [mapM_toEvent fun e he => h.storable e (Events.mem_select.mp he).1]
  · refine Or.inl ⟨e, he, ?_⟩
    rw [list_exec, hq]

/-- A table takes an instant inside of a leap second for the instant as which it is kept. -/
instance : LawfulStore Table where
  events := readable
  Sound t := ∃ es, t.Holds es
  seen := Instant.kept
  accepts := accepts
  seen_of_ordinary := Instant.kept_eq_self
  distinct := by
    rintro t ⟨es, h⟩
    rw [h.readable_eq]
    exact h.distinct
  seen_start := by
    rintro t e ⟨es, h⟩ he
    rw [h.readable_eq] at he
    exact Instant.kept_eq_self (h.storable e he).start_ordinary
  accepts_eq := by
    rintro t q e ⟨es, h⟩ he hexact
    rw [h.readable_eq] at he
    exact accepts_eq_of_exact (h.storable e he)
      fun f hf => Instant.kept_eq_self_iff.mp (hexact f hf)
  add_invalid t h := by
    change (Table.add _ _ _).exec t = _
    rw [add_exec, h]
  add_valid := by
    rintro d t now id ⟨es, h⟩ hd
    rcases h.add_cases hd with hbreak | ⟨t', hexec, h'⟩
    · exact Or.inl hbreak
    · refine Or.inr ⟨t', hexec, ⟨_, h'⟩, ?_⟩
      rw [h'.readable_eq, h.readable_eq]
      rfl
  update_invalid t h := by
    change (Table.update _ _ _).exec t = _
    rw [update_exec, h]
  update_valid := by
    rintro p t now q ⟨es, h⟩ hp
    rcases h.update_cases hp with hbreak | ⟨t', hexec, h'⟩
    · exact Or.inl hbreak
    · rw [h.readable_eq]
      exact Or.inr ⟨t', hexec, ⟨_, h'⟩, h'.readable_eq⟩
  delete_cases := by
    rintro t q ⟨es, h⟩
    rcases h.delete_cases q with hbreak | ⟨t', hexec, h'⟩
    · exact Or.inl hbreak
    · rw [h.readable_eq]
      exact Or.inr ⟨t', hexec, ⟨_, h'⟩, h'.readable_eq⟩
  list_cases := by
    rintro t q ⟨es, h⟩
    rw [h.readable_eq]
    exact h.list_cases q

theorem sound_empty : LawfulStore.Sound ({} : Table) := ⟨[], holds_empty⟩

theorem events_empty : LawfulStore.events ({} : Table) = [] := holds_empty.readable_eq

/-- All events of a table that was filled through its accesses can be read. -/
theorem contents_of_sound {t : Table} (h : LawfulStore.Sound t) :
    t.contents = .ok (LawfulStore.events t) := by
  obtain ⟨es, h⟩ := h
  rw [h.contents_eq]
  exact congrArg Except.ok h.readable_eq.symm

theorem storable_of_sound {t : Table} {e : Event} (h : LawfulStore.Sound t)
    (he : e ∈ LawfulStore.events t) : e.Storable := by
  obtain ⟨es, h⟩ := h
  have hmem : e ∈ t.readable := he
  rw [h.readable_eq] at hmem
  exact h.storable e hmem

end Table

end Reminders
