import Reminders.Proofs.Calendar.Operations
import Reminders.Proofs.Store.TableLaws

/-!
# Operations that fail

An operation on a calendar that returns an error leaves the stored events as they were, whatever the
store holds: rows that nobody can read, and events that no calendar would have accepted.  A
`SteadyStore` says what this takes.  The delicate operation is the change of an event, which looks
the event up once more after it has written.  That cannot fail, since what could be read before the
change can be read after it (`SteadyStore.found_after_update`).
-/

namespace Reminders

/-- A store in which accesses that fail, or find nothing to write to, change nothing. -/
class SteadyStore (σ : Type) [EventStore σ] : Prop where
  list_keeps : ∀ (q : Search) (s : σ), ((EventStore.list q : StoreM σ (List Event)).exec s).2 = s
  add_fails : ∀ {now : Instant} {id : EventId} {d : Draft} {s s' : σ} {e : StoreError},
    (EventStore.add now id d : StoreM σ Event).exec s = (.error e, s') → s' = s
  update_fails : ∀ {now : Instant} {p : Patch} {q : Search} {s s' : σ} {e : StoreError},
    (EventStore.update now p q : StoreM σ Nat).exec s = (.error e, s') → s' = s
  update_misses : ∀ {now : Instant} {p : Patch} {q : Search} {s s' : σ},
    (EventStore.update now p q : StoreM σ Nat).exec s = (.ok 0, s') → s' = s
  delete_fails : ∀ {q : Search} {s s' : σ} {e : StoreError},
    (EventStore.delete q : StoreM σ Nat).exec s = (.error e, s') → s' = s
  delete_misses : ∀ {q : Search} {s s' : σ},
    (EventStore.delete q : StoreM σ Nat).exec s = (.ok 0, s') → s' = s
  /-- An event that could be looked up can be looked up after it was changed. -/
  found_after_update : ∀ {now : Instant} {p : Patch} {id : EventId} {s s' : σ} {n : Nat}
      {found : List Event},
    ((EventStore.list (.byId id) : StoreM σ (List Event)).exec s).1 = .ok found →
      (EventStore.update now p (.byId id) : StoreM σ Nat).exec s = (.ok (n + 1), s') →
        ∃ e rest, ((EventStore.list (.byId id) : StoreM σ (List Event)).exec s').1 =
          .ok (e :: rest)

/-! ## Lists in which nothing is accepted -/

namespace Events

theorem map_of_countP_eq_zero {α : Type} {xs : List α} {accepted : α → Bool}
    (h : xs.countP accepted = 0) (f : α → α) :
    (xs.map fun x => if accepted x then f x else x) = xs := by
  rw [List.countP_eq_zero] at h
  calc
    (xs.map fun x => if accepted x then f x else x) = xs.map id :=
      List.map_congr_left fun x hx => if_neg (h x hx)
    _ = xs := List.map_id xs

theorem filter_of_countP_eq_zero {α : Type} {xs : List α} {accepted : α → Bool}
    (h : xs.countP accepted = 0) : xs.filter (! accepted ·) = xs := by
  rw [List.countP_eq_zero] at h
  rw [List.filter_eq_self]
  intro x hx
  simpa using h x hx

end Events

/-! ## The store in memory -/

namespace MemoryStore

theorem exists_select_byId {s : MemoryStore} {id : EventId} {e : Event} (he : e ∈ s.events)
    (hid : e.id = id) : ∃ f rest, s.select (.byId id) = f :: rest := by
  have hmem : e ∈ s.select (.byId id) := by
    refine Events.mem_select.mpr ⟨he, ?_⟩
    rw [Search.accepts_byId, hid, beq_self_eq_true]
  exact List.exists_cons_of_ne_nil (List.ne_nil_of_mem hmem)

theorem exists_select_change {s : MemoryStore} {id : EventId} (now : Instant) (p : Patch)
    (hcount : s.count (.byId id) ≠ 0) :
    ∃ f rest, (s.change now p (.byId id)).select (.byId id) = f :: rest := by
  have hpos : 0 < s.events.countP (Search.byId id).accepts := Nat.pos_of_ne_zero hcount
  obtain ⟨e, he, haccepts⟩ := List.countP_pos_iff.mp hpos
  have hchanged : p.apply now e ∈ (s.change now p (.byId id)).events :=
    List.mem_map.mpr ⟨e, he, if_pos haccepts⟩
  rw [Search.accepts_byId, beq_iff_eq] at haccepts
  exact exists_select_byId hchanged haccepts.symm

instance : SteadyStore MemoryStore where
  list_keeps _ _ := rfl
  add_fails {now id d s s' e} h := by
    change (MemoryStore.add now id d).exec s = _ at h
    rw [add_exec] at h
    cases hd : d.check with
    | error cause => simp_all
    | ok _ => simp_all
  update_fails {now p q s s' e} h := by
    change (MemoryStore.update now p q).exec s = _ at h
    rw [update_exec] at h
    cases hp : p.check with
    | error cause => simp_all
    | ok _ => simp_all
  update_misses {now p q s s'} h := by
    change (MemoryStore.update now p q).exec s = _ at h
    rw [update_exec] at h
    cases hp : p.check with
    | error cause => simp_all
    | ok _ =>
        simp only [hp, Prod.mk.injEq, Except.ok.injEq] at h
        rw [← h.2, change, Events.map_of_countP_eq_zero h.1]
  delete_fails h := by cases h
  delete_misses {q s s'} h := by
    have hcount : s.count q = 0 := Except.ok.inj (congrArg Prod.fst h)
    have hstore : (⟨s.events.filter (! q.accepts ·)⟩ : MemoryStore) = s' := congrArg Prod.snd h
    rw [← hstore, Events.filter_of_countP_eq_zero hcount]
  found_after_update {now p id s s' n found} _ h := by
    change (MemoryStore.update now p (.byId id)).exec s = _ at h
    rw [update_exec] at h
    cases hp : p.check with
    | error cause => simp_all
    | ok _ =>
        simp only [hp, Prod.mk.injEq, Except.ok.injEq] at h
        obtain ⟨f, rest, hselect⟩ := exists_select_change now p (by omega : s.count (.byId id) ≠ 0)
        rw [h.2] at hselect
        exact ⟨f, rest, congrArg Except.ok hselect⟩

end MemoryStore

/-! ## The store in a database -/

namespace Row

/-- The identifier and the status can be read. -/
def IsReadable (r : Row) : Prop :=
  (EventId.parse? r.id).isSome ∧ (NotifyStatus.parse? r.status).isSome

theorem isReadable_iff {r : Row} : r.IsReadable ↔ ∃ e, r.toEvent = .ok e := by
  rw [IsReadable, toEvent]
  cases EventId.parse? r.id <;> cases NotifyStatus.parse? r.status <;> simp

theorem exists_mapM_iff {rs : List Row} :
    (∃ es, rs.mapM toEvent = .ok es) ↔ ∀ r ∈ rs, r.IsReadable := by
  induction rs with
  | nil => simp [pure, Except.pure]
  | cons r rs ih =>
      rw [List.forall_mem_cons, ← ih, isReadable_iff, List.mapM_cons]
      cases r.toEvent <;> cases rs.mapM toEvent <;> simp [bind, Except.bind, pure, Except.pure]

/-- At least one event is read from at least one row. -/
theorem exists_mapM_cons {r : Row} {rs : List Row} (h : ∀ r' ∈ r :: rs, r'.IsReadable) :
    ∃ e es, (r :: rs).mapM toEvent = .ok (e :: es) := by
  obtain ⟨e, he⟩ := isReadable_iff.mp (h r List.mem_cons_self)
  obtain ⟨es, hes⟩ := exists_mapM_iff.mpr fun r' hr' => h r' (List.mem_cons_of_mem r hr')
  refine ⟨e, es, ?_⟩
  rw [List.mapM_cons, he, hes]
  rfl

end Row

namespace Patch

/-- A status is only ever replaced by one that can be read. -/
theorem isReadable_apply (p : Patch) (now : Instant) {r : Row} (h : r.IsReadable) :
    ((p.columns now).apply r).IsReadable := by
  refine ⟨h.1, ?_⟩
  cases hstatus : p.status with
  | none =>
      simp only [RowPatch.apply, columns, hstatus]
      exact h.2
  | some status =>
      simp only [RowPatch.apply, columns, hstatus]
      exact Option.isSome_iff_exists.mpr ⟨status, NotifyStatus.parse?_text status⟩

end Patch

namespace Table

theorem accepts_byId_columns (id : EventId) (r : Row) :
    (Search.byId id).columns.accepts r = (r.id == id.text) := by
  simp [RowSearch.accepts, Search.columns, Search.byId]

theorem list_byId_exec (id : EventId) (t : Table) :
    (Table.list (.byId id)).exec t =
      ((t.select (Search.byId id).columns).mapM Row.toEvent, t) :=
  list_exec (.byId id) t

/-- What a change that succeeded did. -/
theorem update_ok {now : Instant} {p : Patch} {q : Search} {t t' : Table} {n : Nat}
    (h : (Table.update now p q).exec t = (.ok n, t')) :
    t.rows.countP q.columns.accepts = n ∧
      t' = ⟨t.rows.map fun r => if q.columns.accepts r then (p.columns now).apply r else r⟩ := by
  rw [update_exec] at h
  cases hp : p.check with
  | error cause => simp [hp] at h
  | ok _ =>
      rcases Patch.ofPatch_keeps now p with ⟨-, hv⟩ | ⟨e, -, hv⟩
      · rcases Search.ofSearch_keeps q with ⟨-, hq⟩ | ⟨e, -, hq⟩
        · simp only [hp, hv, hq, Prod.mk.injEq, Except.ok.injEq] at h
          exact ⟨h.1, h.2.symm⟩
        · simp [hp, hv, hq] at h
      · simp [hp, hv] at h

theorem delete_ok {q : Search} {t t' : Table} {n : Nat}
    (h : (Table.delete q).exec t = (.ok n, t')) :
    t.rows.countP q.columns.accepts = n ∧ t' = ⟨t.rows.filter (! q.columns.accepts ·)⟩ := by
  rw [delete_exec] at h
  rcases Search.ofSearch_keeps q with ⟨-, hq⟩ | ⟨e, -, hq⟩
  · simp only [hq, Prod.mk.injEq, Except.ok.injEq] at h
    exact ⟨h.1, h.2.symm⟩
  · simp [hq] at h

/-- The rows with an identifier after those rows were changed. -/
theorem filter_map_byId (id : EventId) (v : RowPatch) (rs : List Row) :
    (rs.map fun r => if (Search.byId id).columns.accepts r then v.apply r else r).filter
        (Search.byId id).columns.accepts =
      (rs.filter (Search.byId id).columns.accepts).map v.apply := by
  rw [List.filter_map]
  have hsame : ((Search.byId id).columns.accepts ∘ fun r =>
      if (Search.byId id).columns.accepts r then v.apply r else r) =
        (Search.byId id).columns.accepts := by
    funext r
    rw [Function.comp, accepts_byId_columns, accepts_byId_columns]
    split <;> rfl
  rw [hsame]
  exact List.map_congr_left fun r hr => if_pos (List.mem_filter.mp hr).2

theorem found_after {now : Instant} {p : Patch} {id : EventId} {t t' : Table} {n : Nat}
    {found : List Event} (hfound : ((Table.list (.byId id)).exec t).1 = .ok found)
    (h : (Table.update now p (.byId id)).exec t = (.ok (n + 1), t')) :
    ∃ e rest, ((Table.list (.byId id)).exec t').1 = .ok (e :: rest) := by
  obtain ⟨hcount, rfl⟩ := update_ok h
  rw [list_byId_exec] at hfound
  have hreadable : ∀ r ∈ t.rows.filter (Search.byId id).columns.accepts, r.IsReadable := by
    intro r hr
    exact Row.exists_mapM_iff.mp ⟨found, hfound⟩ r (List.mem_mergeSort.mpr hr)
  rw [list_byId_exec, select, filter_map_byId]
  have hafter : ∀ r ∈ ((t.rows.filter (Search.byId id).columns.accepts).map
      (p.columns now).apply).mergeSort Row.listedBefore, r.IsReadable := by
    intro r hr
    obtain ⟨r₀, hr₀, rfl⟩ := List.mem_map.mp (List.mem_mergeSort.mp hr)
    exact p.isReadable_apply now (hreadable r₀ hr₀)
  have hlength : (((t.rows.filter (Search.byId id).columns.accepts).map
      (p.columns now).apply).mergeSort Row.listedBefore).length = n + 1 := by
    rw [List.length_mergeSort, List.length_map, ← List.countP_eq_length_filter, hcount]
  obtain ⟨r, rs, hrows⟩ := List.exists_cons_of_length_eq_add_one hlength
  rw [hrows] at hafter ⊢
  exact Row.exists_mapM_cons hafter

instance : SteadyStore Table where
  list_keeps q t := by
    change ((Table.list q).exec t).2 = t
    rw [list_exec]
    cases RowSearch.ofSearch q <;> rfl
  add_fails {now id d t t' e} h := by
    change (Table.add now id d).exec t = _ at h
    rw [add_exec] at h
    split at h
    · exact (congrArg Prod.snd h).symm
    · split at h
      · exact (congrArg Prod.snd h).symm
      · split at h
        · exact (congrArg Prod.snd h).symm
        · cases h
  update_fails {now p q t t' e} h := by
    change (Table.update now p q).exec t = _ at h
    rw [update_exec] at h
    split at h
    · exact (congrArg Prod.snd h).symm
    · split at h
      · exact (congrArg Prod.snd h).symm
      · split at h
        · exact (congrArg Prod.snd h).symm
        · cases h
  update_misses {now p q t t'} h := by
    obtain ⟨hcount, rfl⟩ := update_ok h
    rw [Events.map_of_countP_eq_zero hcount]
  delete_fails {q t t' e} h := by
    change (Table.delete q).exec t = _ at h
    rw [delete_exec] at h
    split at h
    · exact (congrArg Prod.snd h).symm
    · cases h
  delete_misses {q t t'} h := by
    obtain ⟨hcount, rfl⟩ := delete_ok h
    rw [Events.filter_of_countP_eq_zero hcount]
  found_after_update hfound h := found_after hfound h

end Table

/-! ## Looking into a calendar -/

namespace Calendar

variable {σ : Type} [EventStore σ] [SteadyStore σ] {α : Type}

/-- If this is how an operation came out, it left the stored events alone or succeeded. -/
def Spares (c : Calendar σ) (r : Except StoreError α × Calendar σ) : Prop :=
  ∀ e, r.1 = .error e → r.2.store = c.store

omit [EventStore σ] [SteadyStore σ] in
theorem spares_self (c : Calendar σ) (r : Except StoreError α) : c.Spares (r, c) :=
  fun _ _ => rfl

theorem list_looks (q : Search) (c : Calendar σ) :
    Reads (list q) c fun found => (StoreM.exec (EventStore.list q) c.store).1 = .ok found := by
  have hexec : StoreM.exec (list q) c = ((StoreM.exec (EventStore.list q) c.store).1,
      { c with store := (StoreM.exec (EventStore.list q) c.store).2 }) := rfl
  rw [Reads, hexec, SteadyStore.list_keeps]
  cases (StoreM.exec (EventStore.list q) c.store).1 with
  | error e => exact Or.inl ⟨e, rfl⟩
  | ok found => exact Or.inr ⟨found, rfl, rfl⟩

theorem hasConflict_looks (owner : String) (range : Range) (exclude : Option EventId)
    (c : Calendar σ) : Reads (hasConflict owner range exclude) c fun _ => True := by
  have hlooks : StoreM.exec (hasConflict owner range exclude) c =
      StoreM.exec (list (c.conflicts owner range exclude) >>= fun found => pure !found.isEmpty) c :=
    rfl
  rw [Reads, hlooks]
  rcases list_looks (c.conflicts owner range exclude) c with ⟨e, hexec⟩ | ⟨found, hexec, -⟩
  · exact Or.inl ⟨e, StoreM.exec_bind_error hexec⟩
  · exact Or.inr ⟨!found.isEmpty, StoreM.exec_bind_ok hexec, trivial⟩

theorem get?_looks (id : EventId) (c : Calendar σ) :
    Reads (get? id) c fun _ =>
      ∃ found, (StoreM.exec (EventStore.list (.byId id)) c.store).1 = .ok found := by
  rcases list_looks (.byId id) c with ⟨e, hexec⟩ | ⟨found, hexec, hfound⟩
  · exact Or.inl ⟨e, StoreM.exec_bind_error hexec⟩
  · cases found with
    | nil => exact Or.inl ⟨.notFound id, StoreM.exec_bind_ok hexec⟩
    | cons e rest => exact Or.inr ⟨e, StoreM.exec_bind_ok hexec, _, hfound⟩

/-- What is in the store can be looked up. -/
theorem get?_of_found {id : EventId} {c : Calendar σ} {e : Event} {rest : List Event}
    (h : (StoreM.exec (EventStore.list (.byId id)) c.store).1 = .ok (e :: rest)) :
    StoreM.exec (get? id) c = (.ok e, c) := by
  rcases list_looks (.byId id) c with ⟨cause, hexec⟩ | ⟨found, hexec, hfound⟩
  · have hfails : (StoreM.exec (list (.byId id)) c).1 = .ok (e :: rest) := h
    rw [hexec] at hfails
    cases hfails
  · rw [h] at hfound
    cases hfound
    exact StoreM.exec_bind_ok hexec

omit [EventStore σ] [SteadyStore σ] in
/-- The last access of an operation. -/
theorem spares_access {a : StoreM σ α} {c : Calendar σ}
    (h : ∀ e s', a.exec c.store = (.error e, s') → s' = c.store) :
    c.Spares (StoreM.exec (access a) c) := by
  have hexec : StoreM.exec (access a) c =
      ((a.exec c.store).1, { c with store := (a.exec c.store).2 }) := rfl
  intro e he
  rw [hexec] at he ⊢
  exact h e _ (Prod.ext he rfl)

omit [EventStore σ] [SteadyStore σ] in
/-- An access that counts what it wrote, and what an operation does after it. -/
theorem spares_write {β : Type} {a : StoreM σ Nat} {c : Calendar σ} {f : Nat → CalendarM σ β}
    (hfails : ∀ e s', a.exec c.store = (.error e, s') → s' = c.store)
    (hmisses : ∀ s', a.exec c.store = (.ok 0, s') → s' = c.store)
    (hzero : ∀ c' : Calendar σ, (StoreM.exec (f 0) c').2 = c')
    (hsucc : ∀ n s', a.exec c.store = (.ok (n + 1), s') →
      c.Spares (StoreM.exec (f (n + 1)) { c with store := s' })) :
    c.Spares (StoreM.exec (access a >>= f) c) := by
  rcases hr : a.exec c.store with ⟨r, s'⟩
  have hexec : StoreM.exec (access a) c = (r, { c with store := s' }) := by
    change ((a.exec c.store).1, { c with store := (a.exec c.store).2 }) = _
    rw [hr]
  cases r with
  | error e =>
      rw [StoreM.exec_bind_error hexec]
      exact fun _ _ => hfails e s' hr
  | ok n =>
      rw [StoreM.exec_bind_ok hexec]
      cases n with
      | zero =>
          intro e _
          rw [hzero]
          exact hmisses s' hr
      | succ n => exact hsucc n s' hr

end Calendar

/-! ## The operations -/

namespace Calendar

variable {σ : Type} [EventStore σ] [SteadyStore σ] {c : Calendar σ}

theorem spares_add (now : Instant) (d : Draft) : c.Spares (StoreM.exec (add now d) c) := by
  unfold add
  refine (require_reads d.check c).ends (fun e => c.spares_self _) ?_
  intro _ _
  exact spares_access (c := { c with ids := c.ids.advance }) fun _ _ => SteadyStore.add_fails

theorem spares_create (now : Instant) (d : Draft) : c.Spares (StoreM.exec (create now d) c) := by
  unfold create
  refine (require_reads d.check c).ends (fun e => c.spares_self _) ?_
  intro _ _
  refine (hasConflict_looks d.owner d.range none c).ends (fun e => c.spares_self _) ?_
  intro busy _
  cases busy with
  | true => exact c.spares_self _
  | false => exact spares_add now d

/-- Once the event was looked up, only its change itself can fail. -/
theorem spares_rewrite {now : Instant} {id : EventId} {p : Patch} {found : List Event}
    (hfound : (StoreM.exec (EventStore.list (.byId id)) c.store).1 = .ok found) :
    c.Spares (StoreM.exec (do
      if (← access (EventStore.update now p (.byId id))) = 0 then throw (.notFound id)
      get? id : CalendarM σ Event) c) := by
  refine spares_write (fun _ _ => SteadyStore.update_fails) (fun _ => SteadyStore.update_misses)
    (fun _ => rfl) ?_
  intro n s' hupdate
  obtain ⟨e, rest, hagain⟩ := SteadyStore.found_after_update hfound hupdate
  have hget : StoreM.exec (get? id) { c with store := s' } = (.ok e, { c with store := s' }) :=
    get?_of_found hagain
  intro cause hcause
  have hok : (StoreM.exec (get? id) { c with store := s' }).1 = .error cause := hcause
  rw [hget] at hok
  cases hok

theorem spares_update (now : Instant) (id : EventId) (p : Patch) :
    c.Spares (StoreM.exec (update now id p) c) := by
  unfold update
  refine (require_reads p.check c).ends (fun e => c.spares_self _) ?_
  intro _ _
  refine (get?_looks id c).ends (fun e => c.spares_self _) ?_
  rintro e ⟨found, hfound⟩
  refine (require_reads (p.checkFor e) c).ends (fun e => c.spares_self _) ?_
  intro _ _
  dsimp only
  split
  · refine (hasConflict_looks e.owner (p.rangeFor e) (some id) c).ends
      (fun e => c.spares_self _) ?_
    intro busy _
    cases busy with
    | true => exact c.spares_self _
    | false => exact spares_rewrite hfound
  · exact spares_rewrite hfound

end Calendar

namespace CalendarOp

variable {σ : Type} [EventStore σ] [SteadyStore σ]

omit [EventStore σ] [SteadyStore σ] in
theorem spares_map {α β : Type} {c : Calendar σ} {a : CalendarM σ α} (f : α → β)
    (h : c.Spares (StoreM.exec a c)) : c.Spares (StoreM.exec (f <$> a) c) := by
  intro e he
  rw [StoreM.exec_map] at he ⊢
  cases hr : (StoreM.exec a c).1 with
  | error cause => exact h cause hr
  | ok x =>
      rw [hr] at he
      cases he

theorem run_spares (c : Calendar σ) (now : Instant) (op : CalendarOp) :
    c.Spares (StoreM.exec (op.run now) c) := by
  cases op with
  | create d => exact spares_map _ (Calendar.spares_create now d)
  | update id p => exact spares_map _ (Calendar.spares_update now id p)
  | delete id =>
      exact Calendar.spares_write (fun _ _ => SteadyStore.delete_fails)
        (fun _ => SteadyStore.delete_misses) (fun _ => rfl) fun _ _ _ _ h => by cases h
  | setNotified id =>
      exact Calendar.spares_write (fun _ _ => SteadyStore.update_fails)
        (fun _ => SteadyStore.update_misses) (fun _ => rfl) fun _ _ _ _ h => by cases h
  | cleanUp age =>
      refine spares_map _ ((Calendar.cutoff_reads now age c).ends (fun e => c.spares_self _) ?_)
      intro t _
      exact Calendar.spares_access fun _ _ => SteadyStore.delete_fails
  | rearm age =>
      refine spares_map _ ((Calendar.cutoff_reads now age c).ends (fun e => c.spares_self _) ?_)
      intro t _
      exact Calendar.spares_access fun _ _ => SteadyStore.update_fails

end CalendarOp

/-- An operation that returns an error leaves every stored event as it was, in either store and
whatever the store holds. -/
theorem failed_operation_changes_nothing (now : Instant) (op : CalendarOp) :
    (∀ (c : Calendar MemoryStore) (e : StoreError), (StoreM.exec (op.run now) c).1 = .error e →
      (StoreM.exec (op.run now) c).2.store = c.store) ∧
    ∀ (c : Calendar Table) (e : StoreError), (StoreM.exec (op.run now) c).1 = .error e →
      (StoreM.exec (op.run now) c).2.store = c.store :=
  ⟨fun c => op.run_spares c now, fun c => op.run_spares c now⟩

/-- A lesson of an hour at three and a talk of an hour at four. -/
def lessonAndTalk {σ : Type} [EventStore σ] (empty : σ) : Calendar σ :=
  let three : Instant := .ofWordNanos 54000000000000
  let four : Instant := .ofWordNanos 57600000000000
  let create (title : String) (start : Instant) : CalendarOp :=
    .create ⟨"ann", title, start, four.since three, none, .zero⟩
  let book (c : Calendar σ) (op : CalendarOp) : Calendar σ := (StoreM.exec (op.run .epoch) c).2
  [create "lesson" three, create "talk" four].foldl book ⟨empty, true, ⟨[], 0⟩⟩

/-- The lesson is to last two hours. -/
def prolongLesson : CalendarOp :=
  .update (IdSupply.numbered 1)
    { duration := some ((Instant.ofWordNanos 7200000000000).since .epoch) }

/-- In memory the talk is in the way of a longer lesson.  In a table the status of the talk has been
overwritten, so that the search for conflicts breaks down. -/
theorem failed_operation_changes_nothing_lesson :
    let c : Calendar MemoryStore := lessonAndTalk {}
    let t : Calendar Table := lessonAndTalk {}
    let damaged := (t.store.overwrite "notify_status" (IdSupply.numbered 2) "later").2
    ((StoreM.exec (prolongLesson.run .epoch) c).1 =
        .error (.dateBusy "ann" (.ofWordNanos 54000000000000)) ∧
      (StoreM.exec (prolongLesson.run .epoch) c).2.store = c.store) ∧
    (StoreM.exec (prolongLesson.run .epoch) { t with store := damaged }).1 =
        .error (.backend "invalid notify status \x60later\x60 in events.notify_status") ∧
      (StoreM.exec (prolongLesson.run .epoch) { t with store := damaged }).2.store = damaged := by
  intro c t damaged
  have hbusy : (StoreM.exec (prolongLesson.run .epoch) c).1 =
      .error (.dateBusy "ann" (.ofWordNanos 54000000000000)) := by decide +kernel
  have hunreadable : (StoreM.exec (prolongLesson.run .epoch) { t with store := damaged }).1 =
      .error (.backend "invalid notify status \x60later\x60 in events.notify_status") := by
    decide +kernel
  exact ⟨⟨hbusy, (failed_operation_changes_nothing .epoch prolongLesson).1 c _ hbusy⟩,
    hunreadable, (failed_operation_changes_nothing .epoch prolongLesson).2 _ _ hunreadable⟩

end Reminders
