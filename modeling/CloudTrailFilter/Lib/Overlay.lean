import CloudTrailFilter.Lib.Fallible

/-!
# Layers of a record

A record whose fields are read and written by name, and a layer that gives some of its fields and
leaves the others to the layer below. The layer is read field by field in a fixed order, and the
first field it gives and that cannot be read fails the whole. What the record comes to does not
depend on that order; what the failure is does.
-/

namespace CloudTrailFilter

/-- The fields `V` of a record `D`, each with its type, and the rest of it, which no field reaches. -/
structure Fields (D R V : Type) (Value : V → Type) where
  get : (v : V) → D → Value v
  set : (v : V) → Value v → D → D
  rest : D → R
  get_set_self : ∀ v x d, get v (set v x d) = x
  get_set_of_ne : ∀ v w x d, w ≠ v → get w (set v x d) = get w d
  rest_set : ∀ v x d, rest (set v x d) = rest d
  ext : ∀ d d', rest d = rest d' → (∀ v, get v d = get v d') → d = d'

namespace Fields
variable {D R V ε : Type} {Value : V → Type} (F : Fields D R V Value)

/-- What a layer says about a field: nothing, a value, or something that cannot be read. -/
abbrev Layer (ε : Type) (Value : V → Type) := (v : V) → Option (Except ε (Value v))

/-- The value of a field under a layer, over the value below. -/
def layered {α : Type} (upper : Option (Except ε α)) (lower : α) : Except ε α :=
  match upper with
  | none => .ok lower
  | some read => read

def put (layer : Layer ε Value) (v : V) (d : D) : Except ε D :=
  match layer v with
  | none => .ok d
  | some (.ok x) => .ok (F.set v x d)
  | some (.error e) => .error e

/-- The record under a layer whose fields are read in the order of `vs`. -/
def overlay (layer : Layer ε Value) (vs : List V) (d : D) : Except ε D :=
  vs.foldlM (fun d v => F.put layer v d) d

section Put
variable {F} {layer : Layer ε Value} {v : V} {d d' : D}

lemma put_ok (h : F.put layer v d = .ok d') :
    F.rest d' = F.rest d ∧ layered (layer v) (F.get v d) = .ok (F.get v d') ∧
      ∀ w, w ≠ v → F.get w d' = F.get w d := by
  unfold put at h
  split at h
  · rename_i hnone
    cases h
    exact ⟨rfl, by rw [hnone]; rfl, fun _ _ => rfl⟩
  · rename_i x hsome
    cases h
    refine ⟨F.rest_set v x d, ?_, fun w hw => F.get_set_of_ne v w x d hw⟩
    rw [hsome, F.get_set_self]
    rfl
  · cases h

lemma put_error_iff {e : ε} : F.put layer v d = .error e ↔ layer v = some (.error e) := by
  unfold put
  split <;> simp_all

end Put

section Overlay
variable {F} {layer : Layer ε Value} {vs : List V} {d d' : D}

lemma overlay_cons (v : V) (vs : List V) (d : D) :
    F.overlay layer (v :: vs) d = F.put layer v d >>= F.overlay layer vs := by
  simp only [overlay, List.foldlM_cons]
  rfl

/-- A layer that can be read gives its fields their values and leaves everything else. -/
lemma overlay_ok (hnodup : vs.Nodup) (h : F.overlay layer vs d = .ok d') :
    F.rest d' = F.rest d ∧ (∀ v ∈ vs, layered (layer v) (F.get v d) = .ok (F.get v d')) ∧
      ∀ v, v ∉ vs → F.get v d' = F.get v d := by
  induction vs generalizing d with
  | nil =>
    cases h
    simp
  | cons v vs ih =>
    rw [overlay_cons] at h
    obtain ⟨mid, hput, hrest⟩ := Fallible.bind_ok_iff.mp h
    obtain ⟨hv, hnodup⟩ := List.nodup_cons.mp hnodup
    obtain ⟨hrest₁, hhere, hothers⟩ := put_ok hput
    obtain ⟨hrest₂, hlater, houtside⟩ := ih hnodup hrest
    refine ⟨hrest₂.trans hrest₁, ?_, ?_⟩
    · intro w hw
      rcases List.mem_cons.mp hw with rfl | hw
      · rw [houtside w hv]
        exact hhere
      · have hne : w ≠ v := fun heq => hv (heq ▸ hw)
        rw [← hothers w hne]
        exact hlater w hw
    · intro w hw
      obtain ⟨hne, hw⟩ := not_or.mp (mt List.mem_cons.mpr hw)
      rw [houtside w hw, hothers w hne]

/-- The failure of a layer is that of the first field it gives and that cannot be read. -/
theorem overlay_error_iff {e : ε} : F.overlay layer vs d = .error e ↔
    ∃ before v after, vs = before ++ v :: after ∧ layer v = some (.error e) ∧
      ∀ w ∈ before, ∀ e', layer w ≠ some (.error e') := by
  induction vs generalizing d with
  | nil => simp [overlay, pure, Except.pure]
  | cons v vs ih =>
    rw [overlay_cons]
    cases hput : F.put layer v d with
    | error e' =>
      have hv := put_error_iff.mp hput
      constructor
      · intro h
        cases h
        exact ⟨[], v, vs, rfl, hv, by simp⟩
      · rintro ⟨before, w, after, hvs, hw, hbefore⟩
        rcases before with _ | ⟨u, before⟩
        · cases hvs
          rw [hv] at hw
          cases hw
          rfl
        · cases hvs
          exact (hbefore v (by simp) e' hv).elim
    | ok mid =>
      have hv : ∀ e', layer v ≠ some (.error e') := by
        intro e' hv
        rw [put_error_iff.mpr hv] at hput
        cases hput
      rw [Fallible.ok_bind, ih]
      constructor
      · rintro ⟨before, w, after, rfl, hw, hbefore⟩
        refine ⟨v :: before, w, after, rfl, hw, ?_⟩
        rintro u hu
        rcases List.mem_cons.mp hu with rfl | hu
        · exact hv
        · exact hbefore u hu
      · rintro ⟨before, w, after, hvs, hw, hbefore⟩
        rcases before with _ | ⟨u, before⟩
        · cases hvs
          exact (hv e hw).elim
        · cases hvs
          exact ⟨before, w, after, rfl, hw, fun u hu => hbefore u (by simp [hu])⟩

/-- What a record comes to under a layer, when every field is read once. -/
theorem overlay_ok_iff (hnodup : vs.Nodup) (hall : ∀ v, v ∈ vs) : F.overlay layer vs d = .ok d' ↔
    F.rest d' = F.rest d ∧ ∀ v, layered (layer v) (F.get v d) = .ok (F.get v d') := by
  constructor
  · intro h
    obtain ⟨hrest, hfields, -⟩ := overlay_ok hnodup h
    exact ⟨hrest, fun v => hfields v (hall v)⟩
  · rintro ⟨hrest, hfields⟩
    cases hoverlay : F.overlay layer vs d with
    | error e =>
      obtain ⟨_, v, _, -, hv, -⟩ := overlay_error_iff.mp hoverlay
      have := hfields v
      rw [hv] at this
      cases this
    | ok d'' =>
      obtain ⟨hrest', hfields', -⟩ := overlay_ok hnodup hoverlay
      rw [F.ext d'' d' (hrest'.trans hrest.symm)]
      intro v
      have hsame := (hfields' v (hall v)).symm.trans (hfields v)
      exact Except.ok.inj hsame

end Overlay

end Fields

end CloudTrailFilter
