import SchemaLedger.Proofs.Store.Failure
import SchemaLedger.Proofs.Store.Renaming
import SchemaLedger.Proofs.Store.Site

/-!
# The same run with other uids

A revision may be run again on a copy of its store, in which the uids are renamed and the source
offers the renamed uids that the first run has drawn. If no control decision looks at a fresh uid,
the second run is the first one with its uids renamed. `Revision.Copies` says so of a revision and
its counterpart; it is proved for revisions by their parts.

A permutation is only asked to leave the uids of an initial model alone. So what is looked up by
such a uid is looked up by the same uid in both runs.
-/

namespace SchemaLedger

/-! ### Sources -/

namespace UidSource

/-- The next candidates of the source are these, in this order. -/
def StartsWith : UidSource → List UInt64 → Prop
  | _, [] => True
  | source, uid :: uids => source.peek = uid ∧ source.advance.StartsWith uids

/-- The source after so many more candidates have been taken. -/
def skip (source : UidSource) (count : Nat) : UidSource :=
  { source with taken := source.taken + count }

variable {source : UidSource} {us vs : List UInt64}

@[simp] theorem skip_zero : source.skip 0 = source := rfl

theorem skip_skip (n k : Nat) : (source.skip n).skip k = source.skip (n + k) := by
  simp [skip, Nat.add_assoc]

theorem advance_skip (n : Nat) : source.advance.skip n = source.skip (n + 1) := by
  simp [skip, advance, Nat.add_comm, Nat.add_left_comm]

theorem startsWith_append :
    source.StartsWith (us ++ vs) ↔
      source.StartsWith us ∧ (source.skip us.length).StartsWith vs := by
  induction us generalizing source with
  | nil => simp [StartsWith]
  | cons u us ih => simp [StartsWith, ih, advance_skip, and_assoc]

theorem StartsWith.of_prefix (h : source.StartsWith vs) (shorter : us <+: vs) :
    source.StartsWith us := by
  obtain ⟨rest, rfl⟩ := shorter
  exact (startsWith_append.mp h).1

/-- The source that offers these uids first. -/
def offering (uids : List UInt64) : UidSource where
  candidate k := uids.getD k 0

theorem startsWith_offering (uids : List UInt64) : (offering uids).StartsWith uids := by
  have rest (uids : List UInt64) (source : UidSource)
      (offered : ∀ k, k < uids.length → source.candidate (source.taken + k) = uids.getD k 0) :
      source.StartsWith uids := by
    induction uids generalizing source with
    | nil => trivial
    | cons u uids ih =>
        refine ⟨by simpa [peek] using offered 0 (by simp), ih _ fun k lt => ?_⟩
        have later := offered (k + 1) (by simpa using lt)
        simpa [advance, Nat.add_assoc, Nat.add_comm 1 k] using later
  exact rest uids _ fun k _ => by simp [offering]

end UidSource

/-- A uid that may be drawn is drawn if it is the next one. -/
theorem Model.freshUid?_of_startsWith {m : Model} {source : UidSource} {uid : UInt64}
    (assigned : uid ≠ 0) (unknown : ¬ m.Mentions uid) (next : source.StartsWith [uid]) :
    m.freshUid? source = (some uid, source.skip 1) := by
  obtain ⟨rfl, -⟩ := next
  have accepted : decide (source.peek ≠ 0 ∧ ¬ m.Mentions source.peek) = true :=
    decide_eq_true ⟨assigned, unknown⟩
  rw [freshUid?, uidAttempts, UidSource.search, if_pos accepted]
  rfl

theorem Revision.freshUid_of_startsWith {m : Model} {source : UidSource} {uid : UInt64}
    (assigned : uid ≠ 0) (unknown : ¬ m.Mentions uid) (next : source.StartsWith [uid]) :
    freshUid ⟨m, source⟩ = .ok uid ⟨m, source.skip 1⟩ :=
  freshUid_eq_ok.mpr ⟨Model.freshUid?_of_startsWith assigned unknown next, rfl⟩

/-! ### Errors -/

/-- The question with the uid that it suggests renamed. -/
def UidQuestion.renameSuggestion (σ : Equiv.Perm UInt64) : UidQuestion → UidQuestion
  | .property owner name (some (current, fresh)) =>
    .property owner name (some (current, σ fresh))
  | question => question

/-- The error with the uid that it suggests renamed, if it suggests one. -/
def ModelError.renameSuggestion (σ : Equiv.Perm UInt64) : ModelError → ModelError
  | .uidRequested question => .uidRequested (question.renameSuggestion σ)
  | .within place e => .within place (e.renameSuggestion σ)
  | e => e

theorem ModelError.renameSuggestion_refl (e : ModelError) :
    e.renameSuggestion (Equiv.refl UInt64) = e := by
  induction e with
  | within place e ih => rw [renameSuggestion, ih]
  | uidRequested question =>
      rw [renameSuggestion]
      congr 1
      unfold UidQuestion.renameSuggestion
      split <;> rfl
  | _ => rfl

/-! ### What is retained -/

namespace Model

variable {m : Model} {i j : Nat}

/-- A change of an entity retains what this entity retains. -/
theorem retains_modifyEntity {f : Entity → Entity}
    (own : ∀ e, m.entities[i]? = some e → ∀ uid ∈ e.ownUids, uid ≠ 0 → uid ∈ (f e).ownUids) :
    m.Retains (m.modifyEntity i f) := by
  intro uid assigned hu
  rcases mem_census.mp hu with ⟨e, he, hu⟩ | hu
  · obtain ⟨k, there⟩ := List.mem_iff_getElem?.mp he
    have changed : (m.modifyEntity i f).entities[k]? = some (if i = k then f e else e) := by
      simp [modifyEntity, List.getElem?_modify, there]
    refine mem_census_of_entity (List.mem_of_getElem? changed) ?_
    split
    · next here => exact own e (here ▸ there) uid hu assigned
    · exact hu
  · exact mem_census_of_retired hu

/-- A change of a property retains what this property retains. -/
theorem retains_modifyProperty {f : Property → Property}
    (own : ∀ p, m.propertyAt? i j = some p → ∀ uid ∈ p.uids, uid ∈ (f p).uids) :
    m.Retains (m.modifyProperty i j f) := by
  refine retains_modifyEntity fun e at_i uid hu _ => ?_
  rw [Entity.mem_ownUids] at hu ⊢
  refine hu.imp_right (Or.imp_left ?_)
  rintro ⟨p, hp, hu⟩
  obtain ⟨k, there⟩ := List.mem_iff_getElem?.mp hp
  have changed : (e.properties.modify j f)[k]? = some (if j = k then f p else p) := by
    simp [List.getElem?_modify, there]
  refine ⟨_, List.mem_of_getElem? changed, ?_⟩
  split
  · next here => exact own p (by simp [propertyAt?, at_i, here, there]) uid hu
  · exact hu

/-- A relation that keeps its identifier may be changed. -/
theorem retains_modifyRelation {f : Relation → Relation} (same : ∀ r, (f r).id = r.id) :
    m.Retains (m.modifyRelation i j f) := by
  refine retains_modifyEntity fun e _ uid hu _ => ?_
  have ids := map_modify_of_same (fun r : Relation => r.id.uid) (fun r => by rw [same r]) j
    e.relations
  simpa only [Entity.ownUids, ids] using hu

/-- A change that only concerns the site of an entity retains what this site retains. -/
theorem retains_at_site {e : Entity} {b : Site} (f : Model → Model)
    (at_i : m.entities[i]? = some e) (changed : f (m.place i (m.siteOf e)) = m.place i b)
    (retains : (m.siteOf e).Retains b) : m.Retains (f m) := by
  have site := retains_place (List.getElem?_eq_some_iff.mp at_i).1 retains
  rwa [← changed, place_siteOf at_i] at site

theorem retains_keepProperties (keep : Property → Bool) : m.Retains (m.keepProperties i keep) := by
  cases there : m.entities[i]? with
  | none =>
      have unchanged : m.keepProperties i keep = m := by simp [keepProperties, there]
      rw [unchanged]
      exact .refl m
  | some e =>
      have lt := (List.getElem?_eq_some_iff.mp there).1
      exact retains_at_site (·.keepProperties i keep) there (keepProperties_place lt keep)
        ((m.siteOf e).evolves_keepProperties keep).retains

theorem retains_keepRelations (keep : Relation → Bool) : m.Retains (m.keepRelations i keep) := by
  cases there : m.entities[i]? with
  | none =>
      have unchanged : m.keepRelations i keep = m := by simp [keepRelations, there]
      rw [unchanged]
      exact .refl m
  | some e =>
      have lt := (List.getElem?_eq_some_iff.mp there).1
      exact retains_at_site (·.keepRelations i keep) there (keepRelations_place lt keep)
        ((m.siteOf e).evolves_keepRelations keep).retains

end Model

/-! ### Copies -/

/-- The uid is zero or mentioned in the model. -/
def Model.Knows (m : Model) (uid : UInt64) : Prop := uid = 0 ∨ m.Mentions uid

/-- The permutation leaves the uids alone that the model knows. -/
def Model.IsKeptBy (m : Model) (σ : Equiv.Perm UInt64) : Prop := ∀ uid, m.Knows uid → σ uid = uid

theorem Model.IsKeptBy.zero {m : Model} {σ : Equiv.Perm UInt64} (h : m.IsKeptBy σ) : σ 0 = 0 :=
  h 0 (.inl rfl)

/-- The second store is a copy of the first one: its uids are renamed, and its source offers the
renamed uids that are to be drawn. The uids that the initial model `S` knows are the same. -/
structure Store.IsCopy (S : Model) (σ : Equiv.Perm UInt64) (drawn : List UInt64) (s s' : Store) :
    Prop where
  kept : S.IsKeptBy σ
  model : s'.model = s.model.rename σ
  starts : s'.uids.StartsWith (drawn.map σ)

/-- A copy for two runs in a row is a copy for the first one, and what this leaves is a copy for the
second one. -/
theorem Store.IsCopy.split {S : Model} {σ : Equiv.Perm UInt64} {drawn drawn' : List UInt64}
    {s s' : Store} (h : s.IsCopy S σ (drawn ++ drawn') s') :
    s.IsCopy S σ drawn s' ∧
      ∀ t : Store, t.IsCopy S σ drawn' ⟨t.model.rename σ, s'.uids.skip drawn.length⟩ := by
  have starts := h.starts
  rw [List.map_append, UidSource.startsWith_append, List.length_map] at starts
  exact ⟨⟨h.kept, h.model, starts.1⟩, fun t => ⟨h.kept, rfl, starts.2⟩⟩

namespace Revision

variable {α β : Type} {S : Model} {s : Store}

/-- What a run from `s` results in is copied by runs of `y` on the copies of `s`, unless the uids
are used up. The uids that are drawn are fresh and distinct, and nothing is lost on the way. An
error may suggest a uid, which counts as drawn. -/
inductive Copied (S : Model) (ρ : Equiv.Perm UInt64 → α → α)
    (y : Equiv.Perm UInt64 → Revision α) (s : Store) :
    EStateM.Result ModelError Store α → Prop
  | ok (drawn : List UInt64) {a : α} {t : Store} (distinct : drawn.Nodup)
      (fresh : ∀ uid ∈ drawn, s.model.Fresh uid) (used : ∀ uid ∈ drawn, uid ∈ t.model.census)
      (retains : s.model.Retains t.model)
      (again : ∀ σ s', s.IsCopy S σ drawn s' →
        y σ s' = .ok (ρ σ a) ⟨t.model.rename σ, s'.uids.skip drawn.length⟩) :
      Copied S ρ y s (.ok a t)
  | failed (drawn : List UInt64) {e : ModelError} {t : Store} (distinct : drawn.Nodup)
      (fresh : ∀ uid ∈ drawn, s.model.Fresh uid)
      (again : ∀ σ s', s.IsCopy S σ drawn s' →
        ∃ t', y σ s' = .error (e.renameSuggestion σ) t') :
      Copied S ρ y s (.error e t)
  | exhausted {e : ModelError} {t : Store} (root : e.root = .uidsExhausted uidAttempts) :
      Copied S ρ y s (.error e t)

/-- On copies of `s`, the revision `y` copies what `x` does from `s`. -/
def Copies (S : Model) (ρ : Equiv.Perm UInt64 → α → α) (x : Revision α)
    (y : Equiv.Perm UInt64 → Revision α) (s : Store) : Prop :=
  Copied S ρ y s (x s)

/-- The value is the same in the copy. -/
abbrev same (_ : Equiv.Perm UInt64) (a : α) : α := a

namespace Copies

variable {ρ : Equiv.Perm UInt64 → α → α} {ρ' : Equiv.Perm UInt64 → β → β}
variable {x : Revision α} {y : Equiv.Perm UInt64 → Revision α}
variable {f : α → Revision β} {g : Equiv.Perm UInt64 → α → Revision β}

/-- What one run draws and what the next one draws are fresh and distinct together. -/
theorem drawn_append {t : Store} {drawn drawn' : List UInt64}
    (distinct : drawn.Nodup) (fresh : ∀ uid ∈ drawn, s.model.Fresh uid)
    (used : ∀ uid ∈ drawn, uid ∈ t.model.census) (retains : s.model.Retains t.model)
    (distinct' : drawn'.Nodup) (fresh' : ∀ uid ∈ drawn', t.model.Fresh uid) :
    (drawn ++ drawn').Nodup ∧ ∀ uid ∈ drawn ++ drawn', s.model.Fresh uid := by
  refine ⟨List.nodup_append.mpr ⟨distinct, distinct', ?_⟩, ?_⟩
  · rintro u hu v hv rfl
    exact (fresh' u hv).2 (used u hu)
  · intro uid hu
    rcases List.mem_append.mp hu with hu | hu
    · exact fresh uid hu
    · exact retains.fresh (fresh' uid hu)

/-- Two revisions in a row are copied if the first is, and the second is where the first ends. -/
theorem bind (first : Copies S ρ x y s)
    (second : ∀ a t, x s = .ok a t → Copies S ρ' (f a) (fun σ => g σ (ρ σ a)) t) :
    Copies S ρ' (x >>= f) (fun σ => y σ >>= g σ) s := by
  unfold Copies at first ⊢
  cases run : x s with
  | error e t =>
      have stop : (x >>= f) s = .error e t := bind_eq_error.mpr (.inl run)
      rw [run] at first
      rw [stop]
      cases first with
      | exhausted root => exact .exhausted root
      | failed drawn distinct fresh again =>
          refine .failed drawn distinct fresh fun σ s' copy => ?_
          obtain ⟨t', failed⟩ := again σ s' copy
          exact ⟨t', bind_eq_error.mpr (.inl failed)⟩
  | ok a t =>
      have go_on : (x >>= f) s = f a t := by simp only [Bind.bind, EStateM.bind, run]
      have next := second a t run
      unfold Copies at next
      rw [run] at first
      rw [go_on]
      generalize f a t = r at next ⊢
      cases first with
      | ok drawn distinct fresh used retains again =>
          cases next with
          | exhausted root => exact .exhausted root
          | failed drawn' distinct' fresh' again' =>
              obtain ⟨distinct, fresh⟩ :=
                drawn_append distinct fresh used retains distinct' fresh'
              refine .failed (drawn ++ drawn') distinct fresh fun σ s' copy => ?_
              obtain ⟨copy, copy'⟩ := copy.split
              obtain ⟨t', failed⟩ := again' σ _ (copy' t)
              exact ⟨t', bind_eq_error.mpr (.inr ⟨_, _, again σ s' copy, failed⟩)⟩
          | @ok drawn' b u distinct' fresh' used' retains' again' =>
              have used_later (uid : UInt64) (hu : uid ∈ drawn ++ drawn') :
                  uid ∈ u.model.census := by
                rcases List.mem_append.mp hu with hu | hu
                · exact retains' uid (fresh uid hu).1 (used uid hu)
                · exact used' uid hu
              obtain ⟨distinct, fresh⟩ :=
                drawn_append distinct fresh used retains distinct' fresh'
              refine .ok (drawn ++ drawn') distinct fresh used_later (retains.trans retains')
                fun σ s' copy => ?_
              obtain ⟨copy, copy'⟩ := copy.split
              have last := again' σ _ (copy' t)
              rw [UidSource.skip_skip, ← List.length_append] at last
              exact bind_eq_ok.mpr ⟨_, _, again σ s' copy, last⟩

/-- The runs on copies may be given by other revisions that are the same. -/
theorem congr {y' : Equiv.Perm UInt64 → Revision α} (h : Copies S ρ x y s)
    (same : ∀ σ, S.IsKeptBy σ → y' σ = y σ) : Copies S ρ x y' s := by
  unfold Copies at h ⊢
  generalize x s = r at h ⊢
  cases h with
  | ok drawn distinct fresh used retains again =>
      exact .ok drawn distinct fresh used retains fun σ s' copy => by
        rw [same σ copy.kept]
        exact again σ s' copy
  | failed drawn distinct fresh again =>
      exact .failed drawn distinct fresh fun σ s' copy => by
        rw [same σ copy.kept]
        exact again σ s' copy
  | exhausted root => exact .exhausted root

/-- A run that draws nothing is copied if the runs on the copies draw nothing either. -/
theorem of_quiet {a : α} {m : Model} (run : x s = .ok a ⟨m, s.uids⟩)
    (retains : s.model.Retains m)
    (again : ∀ σ uids, S.IsKeptBy σ →
      y σ ⟨s.model.rename σ, uids⟩ = .ok (ρ σ a) ⟨m.rename σ, uids⟩) :
    Copies S ρ x y s := by
  rw [Copies, run]
  refine .ok [] .nil nofun nofun retains fun σ s' copy => ?_
  obtain ⟨m', uids⟩ := s'
  obtain rfl : m' = s.model.rename σ := copy.model
  exact again σ uids copy.kept

/-- A failure is copied if the runs on the copies fail in the same way. -/
theorem of_failed {e : ModelError} {t : Store} (run : x s = .error e t)
    (again : ∀ σ uids, S.IsKeptBy σ →
      ∃ t', y σ ⟨s.model.rename σ, uids⟩ = .error (e.renameSuggestion σ) t') :
    Copies S ρ x y s := by
  rw [Copies, run]
  refine .failed [] .nil nofun fun σ s' copy => ?_
  obtain ⟨m', uids⟩ := s'
  obtain rfl : m' = s.model.rename σ := copy.model
  exact again σ uids copy.kept

theorem pure {a : α} {b : Equiv.Perm UInt64 → α} (values : ∀ σ, S.IsKeptBy σ → b σ = ρ σ a) :
    Copies S ρ (pure a) (fun σ => Pure.pure (b σ)) s :=
  of_quiet rfl (.refl _) fun σ uids kept => by rw [values σ kept]; rfl

theorem throw {e : ModelError} {e' : Equiv.Perm UInt64 → ModelError}
    (errors : ∀ σ, S.IsKeptBy σ → e' σ = e.renameSuggestion σ) :
    Copies S ρ (throw e) (fun σ => throw (e' σ)) s :=
  of_failed rfl fun σ uids kept => ⟨_, by rw [errors σ kept]; rfl⟩

theorem within {place : Place} (h : Copies S ρ x y s) :
    Copies S ρ (within place x) (fun σ => within place (y σ)) s := by
  unfold Copies at h ⊢
  cases run : x s with
  | ok a t =>
      have run' : Revision.within place x s = .ok a t := within_eq_ok.mpr run
      rw [run] at h
      rw [run']
      cases h with
      | ok drawn distinct fresh used retains again =>
          exact .ok drawn distinct fresh used retains fun σ s' copy =>
            within_eq_ok.mpr (again σ s' copy)
  | error e t =>
      have run' : Revision.within place x s = .error (.within place e) t :=
        within_eq_error.mpr ⟨e, run, rfl⟩
      rw [run] at h
      rw [run']
      cases h with
      | exhausted root => exact .exhausted root
      | failed drawn distinct fresh again =>
          refine .failed drawn distinct fresh fun σ s' copy => ?_
          obtain ⟨t', failed⟩ := again σ s' copy
          exact ⟨t', within_eq_error.mpr ⟨_, failed, rfl⟩⟩

/-- A result that is computed is copied by the result of the renamed computation. -/
theorem ofExcept {r : Except ModelError α} {r' : Equiv.Perm UInt64 → Except ModelError α}
    (values : ∀ a, r = .ok a → ∀ σ, S.IsKeptBy σ → r' σ = .ok (ρ σ a))
    (errors : ∀ e, r = .error e → ∀ σ, S.IsKeptBy σ → r' σ = .error (e.renameSuggestion σ)) :
    Copies S ρ (ofExcept r) (fun σ => ofExcept (r' σ)) s := by
  cases h : r with
  | ok a => exact of_quiet rfl (.refl _) fun σ uids kept => by rw [values a h σ kept]; rfl
  | error e => exact of_failed rfl fun σ uids kept => ⟨_, by rw [errors e h σ kept]; rfl⟩

/-- What is done with the result of a look at the store may be taken apart from this look. -/
theorem get_bind {h : Store → Revision α} {h' : Equiv.Perm UInt64 → Store → Revision α}
    (first : Copies S ρ (fun s => h s s) (fun σ s => h' σ s s) s)
    (second : ∀ a t, h s s = .ok a t → Copies S ρ' (f a) (fun σ => g σ (ρ σ a)) t) :
    Copies S ρ' (get >>= fun s => h s >>= f) (fun σ => get >>= fun s => h' σ s >>= g σ) s :=
  first.bind second

theorem update {f : Model → Model} {f' : Equiv.Perm UInt64 → Model → Model}
    (retains : s.model.Retains (f s.model))
    (comm : ∀ σ, S.IsKeptBy σ → (f s.model).rename σ = f' σ (s.model.rename σ)) :
    Copies S same (update f) (fun σ => update (f' σ)) s :=
  of_quiet rfl retains fun σ uids kept => by rw [comm σ kept]; rfl

theorem model : Copies S (fun σ m => m.rename σ) model (fun _ => model) s :=
  of_quiet rfl (.refl _) fun _ _ _ => rfl

theorem entityAt (i : Nat) :
    Copies S (fun σ e => e.rename σ) (entityAt i) (fun _ => entityAt i) s := by
  refine model.bind fun m t _ => ?_
  simp only [Model.entityAt_rename]
  cases m.entities[i]? with
  | none => exact throw fun _ _ => rfl
  | some e => exact pure fun _ _ => rfl

theorem propertyAt (i j : Nat) :
    Copies S (fun σ p => p.rename σ) (propertyAt i j) (fun _ => propertyAt i j) s := by
  refine (entityAt i).bind fun e t _ => ?_
  simp only [Entity.properties_rename, List.getElem?_map]
  cases e.properties[j]? with
  | none => exact throw fun _ _ => rfl
  | some p => exact pure fun _ _ => rfl

theorem relationAt (i j : Nat) :
    Copies S (fun σ r => r.rename σ) (relationAt i j) (fun _ => relationAt i j) s := by
  refine (entityAt i).bind fun e t _ => ?_
  simp only [Entity.relations_rename, List.getElem?_map]
  cases e.relations[j]? with
  | none => exact throw fun _ _ => rfl
  | some r => exact pure fun _ _ => rfl

/-- What is done with a fresh uid is copied with the renamed uid, if it draws nothing more and the
uid is in use in the end. -/
theorem freshUid_bind {k : UInt64 → Revision α} {k' : Equiv.Perm UInt64 → UInt64 → Revision α}
    (next : ∀ uid, ∃ a m, (∀ uids, k uid ⟨s.model, uids⟩ = .ok a ⟨m, uids⟩) ∧
      uid ∈ m.census ∧ s.model.Retains m ∧ ∀ σ uids, S.IsKeptBy σ →
        k' σ (σ uid) ⟨s.model.rename σ, uids⟩ = .ok (ρ σ a) ⟨m.rename σ, uids⟩) :
    Copies S ρ (freshUid >>= k) (fun σ => freshUid >>= k' σ) s := by
  rw [Copies]
  cases drawn : freshUid s with
  | error e t =>
      have stop : (freshUid >>= k) s = .error e t := bind_eq_error.mpr (.inl drawn)
      rw [stop]
      exact .exhausted (by rw [eq_of_freshUid_eq_error drawn]; rfl)
  | ok uid t =>
      obtain ⟨assigned, unknown, unchanged⟩ := of_freshUid drawn
      obtain ⟨a, m, run, used, retains, again⟩ := next uid
      obtain ⟨m₀, uids⟩ := t
      obtain rfl : m₀ = s.model := unchanged
      have go_on : (freshUid >>= k) s = .ok a ⟨m, uids⟩ := bind_eq_ok.mpr ⟨uid, _, drawn, run uids⟩
      rw [go_on]
      refine .ok [uid] (List.nodup_singleton uid) ?_ ?_ retains fun σ s' copy => ?_
      · intro u hu
        obtain rfl := List.mem_singleton.mp hu
        exact .of_unmentioned assigned unknown
      · intro u hu
        exact List.mem_singleton.mp hu ▸ used
      · obtain ⟨m', uids'⟩ := s'
        obtain rfl : m' = s.model.rename σ := copy.model
        have drawn' : freshUid ⟨s.model.rename σ, uids'⟩ =
            .ok (σ uid) ⟨s.model.rename σ, uids'.skip 1⟩ :=
          freshUid_of_startsWith (fun zero => assigned ((apply_eq_zero_iff copy.kept.zero).mp zero))
            (fun known => unknown ((s.model.mentions_rename σ uid).mp known)) copy.starts
        exact bind_eq_ok.mpr ⟨_, _, drawn', again σ _ copy.kept⟩

/-- A new entity is copied by a new entity. -/
theorem createEntity (name : String) :
    Copies S same (createEntity name) (fun _ => createEntity name) s := by
  refine freshUid_bind fun uid => ⟨s.model.entities.length, s.model.addEntity name uid,
    fun _ => rfl, ?_, s.model.retains_addEntity name uid, fun σ uids _ => ?_⟩
  · exact Model.mem_census_of_entity (List.mem_append_right _ List.mem_cons_self)
      (Entity.uid_mem_ownUids _)
  · rw [Model.addEntity_rename]
    exact congrArg (fun n => EStateM.Result.ok n _) (List.length_map _)

theorem createProperty (i : Nat) (name : String) (kind : PropertyKind) :
    Copies S same (createProperty i name kind) (fun _ => createProperty i name kind) s := by
  refine (entityAt i).bind fun e t found => ?_
  obtain ⟨there, rfl⟩ := entityAt_eq_ok.mp found
  have added (uid : UInt64) : (s.model.modifyEntity i (·.addProperty name kind uid)).entities[i]? =
      some (e.addProperty name kind uid) := by
    simp [Model.modifyEntity, there]
  refine freshUid_bind fun uid => ⟨e.properties.length,
    s.model.modifyEntity i (·.addProperty name kind uid), fun _ => rfl, ?_, ?_, fun σ uids _ => ?_⟩
  · refine Model.mem_census_of_entity (List.mem_of_getElem? (added uid)) (Entity.mem_ownUids.mpr ?_)
    exact .inr (.inl ⟨_, List.mem_append_right _ List.mem_cons_self, List.mem_cons_self⟩)
  · refine Model.retains_modifyEntity fun x _ u hu _ => ?_
    rw [Entity.mem_ownUids] at hu ⊢
    refine hu.imp_right (Or.imp_left ?_)
    rintro ⟨p, hp, hu⟩
    exact ⟨p, List.mem_append_left _ hp, hu⟩
  · have added : (s.model.modifyEntity i (·.addProperty name kind uid)).rename σ =
        (s.model.rename σ).modifyEntity i (·.addProperty name kind (σ uid)) :=
      s.model.modifyEntity_rename i fun x => x.addProperty_rename name kind uid
    rw [added]
    exact congrArg (fun n => EStateM.Result.ok n _) (List.length_map _)

theorem createRelation (i : Nat) (name : String) :
    Copies S same (createRelation i name) (fun _ => createRelation i name) s := by
  refine (entityAt i).bind fun e t found => ?_
  obtain ⟨there, rfl⟩ := entityAt_eq_ok.mp found
  refine freshUid_bind fun uid => ⟨e.relations.length, s.model.addRelation i name uid,
    fun _ => rfl, ?_, ?_, fun σ uids _ => ?_⟩
  · have added : (s.model.addRelation i name uid).entities[i]? = some { e with relations :=
        e.relations ++ [{ id := ⟨IdPair.next s.model.lastRelation, uid⟩, name }] } := by
      simp [Model.addRelation, Model.modifyEntity, there]
    refine Model.mem_census_of_entity (List.mem_of_getElem? added) (Entity.mem_ownUids.mpr ?_)
    exact .inr (.inr ⟨_, List.mem_append_right _ List.mem_cons_self, rfl⟩)
  · have changed : s.model.Retains (s.model.modifyEntity i fun x => { x with relations :=
        x.relations ++ [{ id := ⟨IdPair.next s.model.lastRelation, uid⟩, name }] }) := by
      refine Model.retains_modifyEntity fun x _ u hu _ => ?_
      rw [Entity.mem_ownUids] at hu ⊢
      refine hu.imp_right (Or.imp_right ?_)
      rintro ⟨r, hr, hu⟩
      exact ⟨r, List.mem_append_left _ hr, hu⟩
    exact changed
  · rw [Model.addRelation_rename]
    exact congrArg (fun n => EStateM.Result.ok n _) (List.length_map _)

end Copies

end Revision

end SchemaLedger
