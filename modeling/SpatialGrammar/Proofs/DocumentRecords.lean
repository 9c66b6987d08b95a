/-
SpatialGrammar/Proofs/DocumentRecords.lean

The records of a document are read back.

Each record is written with all of its fields, in the order in which they are declared, so
that every field is found by its reader.  A prefab is the exception: its fields stand among
its name and its kind, and are kept before they are read; but what is written nests far less
deep than what can be kept.
-/
import SpatialGrammar.Document.Reading
import SpatialGrammar.Proofs.JsonRecords

namespace SpatialGrammar

open Json

/-! ### Points -/

theorem Vec3.agrees : Agrees Vec3.ofJson? Vec3.toJson (fun _ => True) Vec3.toList where
  fits_of_read _ := trivial
  spelled v := single_agrees.list.spelled v.toList
  read_write {v} _ := by
    have hlist : list? single? (ofList ofSingle v.toList) = gotBack v.toList v.toList :=
      single_agrees.list.read_write (b := v.toList) fun _ _ => trivial
    rw [Vec3.ofJson?, Vec3.toJson, hlist]
    unfold gotBack
    cases v.toList.all Binary32.isFinite <;> rfl

/-! ### Rules, links and settings -/

theorem Alternative.agrees :
    Agrees Alternative.ofJson? Alternative.toJson (fun _ => True) fun a => [a.probability] where
  fits_of_read _ := trivial
  spelled a := spelled_ofFields (by simp [single_agrees.spelled, text_agrees.spelled])
  read_write {a} _ := by
    simp [Alternative.ofJson?, Alternative.toJson, fields?_ofFields, single_agrees.read_write,
      text_agrees.read_write]

/-- The numbers of a rule. -/
def Rule.numbers (r : Rule Float32) : List Float32 := r.outputs.map Alternative.probability

theorem Rule.agrees : Agrees Rule.ofJson? Rule.toJson (fun _ => True) Rule.numbers where
  fits_of_read _ := trivial
  spelled r := spelled_ofFields (by
    simp [text_agrees.spelled, Alternative.agrees.list.spelled])
  read_write {r} _ := by
    simp [Rule.ofJson?, Rule.toJson, fields?_ofFields, text_agrees.read_write,
      Alternative.agrees.list.read_write, Rule.numbers, List.map_eq_flatMap]

theorem Link.agrees : Agrees Link.ofJson? Link.toJson (fun _ => True) fun _ => [] where
  fits_of_read _ := trivial
  spelled l := spelled_ofFields (by simp [text_agrees.spelled, texts_agree.spelled])
  read_write {l} _ := by
    simp [Link.ofJson?, Link.toJson, fields?_ofFields, text_agrees.read_write,
      texts_agree.read_write]

theorem Link.list_agrees :
    Agrees (list? Link.ofJson?) (ofList Link.toJson) (fun _ => True) fun _ => [] :=
  Link.agrees.list.congr (by simp) (by simp)

/-- The numbers of settings have 32 bits. -/
def EngineSettings.Fits (e : EngineSettings) : Prop :=
  e.iterations < 2 ^ 32 ∧ e.maxRecoveryAttempts < 2 ^ 32

theorem EngineSettings.agrees :
    Agrees EngineSettings.ofJson? EngineSettings.toJson EngineSettings.Fits fun _ => [] where
  fits_of_read {v e} h := by
    simp only [EngineSettings.ofJson?, Option.bind_eq_bind, Option.bind_eq_some_iff,
      Option.pure_def, Option.some.injEq] at h
    obtain ⟨fields, -, iterations, hiterations, endless, -, relaxed, -, attempts, hattempts,
      rfl⟩ := h
    exact ⟨(nat_agrees 32).fits_of_withDefault (by decide) hiterations,
      (nat_agrees 32).fits_of_withDefault (by decide) hattempts⟩
  spelled e := spelled_ofFields (by simp [(nat_agrees 32).spelled, bool_agrees.spelled])
  read_write {e} h := by
    simp [EngineSettings.ofJson?, EngineSettings.toJson, fields?_ofFields,
      bool_agrees.read_write, (nat_agrees 32).read_write h.1, (nat_agrees 32).read_write h.2]

/-! ### Boxes -/

/-- The numbers of a space. -/
def SpaceConfig.numbers (s : SpaceConfig Float32) : List Float32 :=
  s.origin.toList ++ s.size.toList ++ s.spawnStart.toList

theorem SpaceConfig.agrees :
    Agrees SpaceConfig.ofJson? SpaceConfig.toJson (fun _ => True) SpaceConfig.numbers where
  fits_of_read _ := trivial
  spelled s := spelled_ofFields (by simp [Vec3.agrees.spelled, bool_agrees.spelled])
  read_write {s} _ := by
    simp [SpaceConfig.ofJson?, SpaceConfig.toJson, fields?_ofFields, Vec3.agrees.read_write,
      bool_agrees.read_write, SpaceConfig.numbers]

theorem SpaceConfig.option_agrees : Agrees (optional? SpaceConfig.ofJson?)
    (ofOption SpaceConfig.toJson) (fun _ => True) fun o => o.toList.flatMap SpaceConfig.numbers :=
  (SpaceConfig.agrees.optional (by simp [SpaceConfig.toJson, ofFields])).congr (by simp) (by simp)

/-- The numbers of a box to scatter runs into. -/
def ScatterArea.numbers (s : ScatterArea Float32) : List Float32 := s.origin.toList ++ s.size.toList

theorem ScatterArea.agrees :
    Agrees ScatterArea.ofJson? ScatterArea.toJson (fun _ => True) ScatterArea.numbers where
  fits_of_read _ := trivial
  spelled s := spelled_ofFields (by simp [Vec3.agrees.spelled])
  read_write {s} _ := by
    simp [ScatterArea.ofJson?, ScatterArea.toJson, fields?_ofFields, Vec3.agrees.read_write,
      ScatterArea.numbers]

theorem ScatterArea.option_agrees : Agrees (optional? ScatterArea.ofJson?)
    (ofOption ScatterArea.toJson) (fun _ => True) fun o => o.toList.flatMap ScatterArea.numbers :=
  (ScatterArea.agrees.optional (by simp [ScatterArea.toJson, ofFields])).congr (by simp) (by simp)

/-! ### Tiles -/

/-- The identifiers of faces have 32 bits. -/
def FaceIds.Fits (ids : FaceIds) : Prop := ∀ face, ids.get face < 2 ^ 32

/-- The identifiers of faces as they are written in a tile. -/
def FaceIds.toJson (ids : FaceIds) : Json :=
  ofFields [
    ("x_pos", ofNat ids.xPos), ("z_neg", ofNat ids.zNeg), ("x_neg", ofNat ids.xNeg),
    ("z_pos", ofNat ids.zPos), ("y_pos", ofNat ids.yPos), ("y_neg", ofNat ids.yNeg)]

theorem FaceIds.agrees : Agrees FaceIds.ofJson? FaceIds.toJson FaceIds.Fits fun _ => [] where
  fits_of_read {v ids} h := by
    simp only [FaceIds.ofJson?, Option.bind_eq_bind, Option.bind_eq_some_iff,
      Option.pure_def, Option.some.injEq] at h
    obtain ⟨fields, -, xPos, h₁, zNeg, h₂, xNeg, h₃, zPos, h₄, yPos, h₅, yNeg, h₆, rfl⟩ := h
    have hfits {name : String} {n : Nat}
        (h : fields.withDefault name (nat? 32) 0 = some n) : n < 2 ^ 32 :=
      (nat_agrees 32).fits_of_withDefault (by decide) h
    intro face
    cases face
    · exact hfits h₁
    · exact hfits h₂
    · exact hfits h₃
    · exact hfits h₄
    · exact hfits h₅
    · exact hfits h₆
  spelled ids := spelled_ofFields (by simp [(nat_agrees 32).spelled])
  read_write {ids} h := by
    have hback : ∀ face, nat? 32 (ofNat (ids.get face)) = some (ids.get face) :=
      fun face => (nat_agrees 32).read_write (h face)
    have h₁ : nat? 32 (ofNat ids.xPos) = some ids.xPos := hback .xPos
    have h₂ : nat? 32 (ofNat ids.zNeg) = some ids.zNeg := hback .zNeg
    have h₃ : nat? 32 (ofNat ids.xNeg) = some ids.xNeg := hback .xNeg
    have h₄ : nat? 32 (ofNat ids.zPos) = some ids.zPos := hback .zPos
    have h₅ : nat? 32 (ofNat ids.yPos) = some ids.yPos := hback .yPos
    have h₆ : nat? 32 (ofNat ids.yNeg) = some ids.yNeg := hback .yNeg
    simp [FaceIds.ofJson?, FaceIds.toJson, fields?_ofFields, h₁, h₂, h₃, h₄, h₅, h₆]

/-- A span as it is written in a tile. -/
def FaceSpan.toJson (s : FaceSpan Float32) : Json :=
  ofFields [("start", ofSingle s.first), ("end", ofSingle s.last)]

theorem FaceSpan.agrees :
    Agrees FaceSpan.ofJson? FaceSpan.toJson (fun _ => True) fun s => [s.first, s.last] where
  fits_of_read _ := trivial
  spelled s := spelled_ofFields (by simp [single_agrees.spelled])
  read_write {s} _ := by
    simp [FaceSpan.ofJson?, FaceSpan.toJson, fields?_ofFields, single_agrees.read_write]

/-- The spans of faces as they are written in a tile. -/
def FaceSpans.toJson (s : FaceSpans Float32) : Json :=
  ofFields [("x_pos", s.xPos.toJson), ("z_neg", s.zNeg.toJson), ("x_neg", s.xNeg.toJson),
    ("z_pos", s.zPos.toJson)]

/-- The numbers of the spans of faces. -/
def FaceSpans.numbers (s : FaceSpans Float32) : List Float32 :=
  [s.xPos, s.zNeg, s.xNeg, s.zPos].flatMap fun span => [span.first, span.last]

theorem FaceSpans.agrees :
    Agrees FaceSpans.ofJson? FaceSpans.toJson (fun _ => True) FaceSpans.numbers where
  fits_of_read _ := trivial
  spelled s := spelled_ofFields (by simp [FaceSpan.agrees.spelled])
  read_write {s} _ := by
    simp [FaceSpans.ofJson?, FaceSpans.toJson, fields?_ofFields, FaceSpan.agrees.read_write,
      FaceSpans.numbers]

/-- The numbers of a tile. -/
def TileShape.numbers (t : TileShape Float32) : List Float32 := t.size.toList ++ t.spans.numbers

theorem TileShape.toFields_eq (t : TileShape Float32) : t.toFields =
    [("size", t.size.toJson), ("faces", t.faces.toJson), ("spans", t.spans.toJson)] := rfl

theorem TileShape.fits_of_ofFields? {fields : Fields} {t : TileShape Float32}
    (h : TileShape.ofFields? fields = some t) : t.faces.Fits := by
  simp only [TileShape.ofFields?, Option.bind_eq_bind, Option.bind_eq_some_iff, Option.pure_def,
    Option.some.injEq] at h
  obtain ⟨size, -, faces, hfaces, spans, -, rfl⟩ := h
  exact FaceIds.agrees.fits_of_withDefault (fun face => by cases face <;> decide) hfaces

theorem TileShape.ofFields?_toFields {t : TileShape Float32} (h : t.faces.Fits) :
    TileShape.ofFields? t.toFields = gotBack t.numbers t := by
  simp [TileShape.ofFields?, TileShape.toFields_eq, Vec3.agrees.read_write,
    FaceIds.agrees.read_write h, FaceSpans.agrees.read_write, TileShape.numbers]

/-! ### Generators -/

theorem AxisMode.ofJson?_label (m : AxisMode) : AxisMode.ofJson? (ofText m.label) = some m := by
  cases m <;> decide

/-- The numbers of a generator have 64 bits. -/
def ChainParams.Fits (p : ChainParams) : Prop :=
  p.count < 2 ^ 64 ∧ (∀ n ∈ p.first, n < 2 ^ 64) ∧ ∀ n ∈ p.last, n < 2 ^ 64

theorem GeneratorPrefab.fits_of_ofFields? {fields : Fields} {g : GeneratorPrefab}
    (h : GeneratorPrefab.ofFields? fields = some g) : g.params.Fits := by
  simp only [GeneratorPrefab.ofFields?, ChainParams.ofFields?, Option.bind_eq_bind,
    Option.bind_eq_some_iff, Option.pure_def, Option.some.injEq] at h
  obtain ⟨-, ⟨count, hcount, axisMode, -, first, hfirst, last, hlast, repeats, -, rotation, -, rfl⟩,
    tiles, -, rfl⟩ := h
  exact ⟨(nat_agrees 64).fits_of_withDefault (by decide) hcount,
    (optionalNat_agrees 64).fits_of_withDefault (by simp [ChainParams.default]) hfirst,
    (optionalNat_agrees 64).fits_of_withDefault (by simp [ChainParams.default]) hlast⟩

theorem GeneratorPrefab.ofFields?_toFields {g : GeneratorPrefab} (h : g.params.Fits) :
    GeneratorPrefab.ofFields? g.toFields = some g := by
  obtain ⟨hcount, hfirst, hlast⟩ := h
  simp [GeneratorPrefab.ofFields?, ChainParams.ofFields?, GeneratorPrefab.toFields,
    bool_agrees.read_write, (nat_agrees 64).read_write hcount, AxisMode.ofJson?_label,
    (optionalNat_agrees 64).read_write hfirst, (optionalNat_agrees 64).read_write hlast,
    texts_agree.read_write]

/-! ### Prefabs -/

/-- The whole numbers of a prefab have as many bits as their fields. -/
def PrefabKind.Fits : PrefabKind Float32 → Prop
  | .marker => True
  | .tile t => t.faces.Fits
  | .generator g => g.params.Fits

/-- The numbers of a prefab. -/
def PrefabKind.numbers : PrefabKind Float32 → List Float32
  | .marker | .generator _ => []
  | .tile t => t.numbers

/-- The written tag of a prefab and the fields of its kind. -/
def PrefabKind.toFields : PrefabKind Float32 → String × Fields
  | .marker => ("marker", [])
  | .tile t => ("tile", t.toFields)
  | .generator g => ("generator", g.toFields)

/-- The tag of a prefab. -/
def PrefabKind.tag : PrefabKind Float32 → PrefabTag
  | .marker => .marker
  | .tile _ => .tile
  | .generator _ => .generator

theorem PrefabKind.fits_of_ofMembers? {members : Fields} {tag : PrefabTag}
    {kind : PrefabKind Float32} (h : PrefabKind.ofMembers? members tag = some kind) :
    kind.Fits := by
  cases tag with
  | marker => exact Option.some.inj h ▸ trivial
  | tile =>
    obtain ⟨shape, hshape, rfl⟩ := Option.map_eq_some_iff.mp h
    obtain ⟨fields, -, hfields⟩ := Option.bind_eq_some_iff.mp hshape
    exact TileShape.fits_of_ofFields? hfields
  | generator =>
    obtain ⟨g, hg, rfl⟩ := Option.map_eq_some_iff.mp h
    obtain ⟨fields, -, hfields⟩ := Option.bind_eq_some_iff.mp hg
    exact GeneratorPrefab.fits_of_ofFields? hfields

theorem Prefab.fits_of_ofJson? {v : Json} {p : Prefab Float32} (h : Prefab.ofJson? v = some p) :
    p.kind.Fits := by
  cases v with
  | object members =>
    simp only [Prefab.ofJson?, Option.bind_eq_bind, Option.bind_eq_some_iff, Option.pure_def] at h
    obtain ⟨members, -, own, -, name, -, h⟩ := h
    split at h
    next =>
      simp only [Option.bind_eq_some_iff, Option.some.injEq] at h
      obtain ⟨tag, -, kind, hkind, rfl⟩ := h
      exact PrefabKind.fits_of_ofMembers? hkind
    next => cases h
  | _ => cases h

theorem Prefab.toJson_eq (p : Prefab Float32) : p.toJson = ofFields
    (("name", ofText p.name) :: ("kind", ofText p.kind.toFields.1) :: p.kind.toFields.2) := by
  obtain ⟨name, kind⟩ := p
  cases kind <;> rfl

theorem PrefabTag.ofJson?_toFields (kind : PrefabKind Float32) :
    PrefabTag.ofJson? (ofText kind.toFields.1) = some kind.tag := by
  cases kind <;> rfl

namespace PrefabKind

theorem spelled_toFields (kind : PrefabKind Float32) : ∀ f ∈ kind.toFields.2, f.2.Spelled := by
  cases kind with
  | marker => simp [toFields]
  | tile t =>
    simp [toFields, TileShape.toFields_eq, Vec3.agrees.spelled, FaceIds.agrees.spelled,
      FaceSpans.agrees.spelled]
  | generator g =>
    simp [toFields, GeneratorPrefab.toFields, (nat_agrees 64).spelled, text_agrees.spelled,
      (optionalNat_agrees 64).spelled, bool_agrees.spelled, texts_agree.spelled]

/-- The fields of a prefab have names of their own. -/
theorem select?_own (kind : PrefabKind Float32) (u v : Json) :
    Fields.select? ["name", "kind"] (("name", u) :: ("kind", v) :: kind.toFields.2) =
      some [("name", u), ("kind", v)] := by
  cases kind <;>
    simp [Fields.select?, List.filter, toFields, TileShape.toFields_eq, GeneratorPrefab.toFields]

/-- What is left without the name. -/
theorem filter_name (kind : PrefabKind Float32) (u v : Json) :
    (("name", u) :: ("kind", v) :: kind.toFields.2).filter (fun m => m.1 ≠ "name") =
      ("kind", v) :: kind.toFields.2 := by
  cases kind <;>
    simp [List.filter, toFields, TileShape.toFields_eq, GeneratorPrefab.toFields]

/-- No field of a prefab nests too deep to be kept. -/
theorem isKeepable_toFields {kind : PrefabKind Float32} (h : kind.Fits) :
    ∀ f ∈ kind.toFields.2, isKeepable Prefab.memberDepth f.2 := by
  cases kind with
  | marker => simp [toFields]
  | tile t =>
    have hids : ∀ face, isKeepable 123 (ofNat (t.faces.get face)) :=
      fun face => isKeepable_ofNat ((h face).trans (by norm_num))
    simpa [toFields, TileShape.toFields_eq, Prefab.memberDepth, Vec3.toJson, FaceIds.toJson,
      FaceSpans.toJson, FaceSpan.toJson] using
      ⟨hids .xPos, hids .zNeg, hids .xNeg, hids .zPos, hids .yPos, hids .yNeg⟩
  | generator g =>
    obtain ⟨hcount, hfirst, hlast⟩ := h
    simpa [toFields, GeneratorPrefab.toFields, Prefab.memberDepth] using
      ⟨isKeepable_ofNat hcount, fun n hn => isKeepable_ofNat (hfirst n hn),
        fun n hn => isKeepable_ofNat (hlast n hn)⟩

/-- The fields of a prefab are found by the reader of its kind. -/
theorem ofMembers?_toFields {kind : PrefabKind Float32} (h : kind.Fits) (v : Json) :
    ofMembers? (("kind", v) :: kind.toFields.2) kind.tag = gotBack kind.numbers kind := by
  cases kind with
  | marker => rfl
  | tile t =>
    have hselect : Fields.select? TileShape.fieldNames (("kind", v) :: t.toFields) =
        some t.toFields := by
      simp [Fields.select?, TileShape.fieldNames, TileShape.toFields_eq, List.filter]
    simp [toFields, tag, ofMembers?, hselect, TileShape.ofFields?_toFields h, numbers]
  | generator g =>
    have hselect : Fields.select? ("tiles" :: ChainParams.fieldNames) (("kind", v) :: g.toFields) =
        some g.toFields := by
      simp [Fields.select?, ChainParams.fieldNames, GeneratorPrefab.toFields, List.filter]
    simp [toFields, tag, ofMembers?, hselect, GeneratorPrefab.ofFields?_toFields h, numbers]

end PrefabKind

/-- **Prefabs of every kind.** -/
theorem Prefab.agrees :
    Agrees Prefab.ofJson? Prefab.toJson (fun p => p.kind.Fits) fun p => p.kind.numbers where
  fits_of_read := Prefab.fits_of_ofJson?
  spelled p := by
    rw [Prefab.toJson_eq]
    exact spelled_ofFields (by simpa [text_agrees.spelled] using p.kind.spelled_toFields)
  read_write {p} h := by
    have hkept : (("kind", ofText p.kind.toFields.1) :: p.kind.toFields.2).all
        fun m => isKeepable Prefab.memberDepth m.2 := by
      simpa using PrefabKind.isKeepable_toFields h
    rw [Prefab.toJson_eq]
    -- the name and the kind are found first, then what is left is kept and read by kind
    simp only [ofFields, Prefab.ofJson?]
    rw [namedMembers?_ofFields]
    simp only [Option.bind_eq_bind, Option.bind_some, PrefabKind.select?_own,
      PrefabKind.filter_name, hkept]
    simp [text_agrees.read_write, PrefabTag.ofJson?_toFields, PrefabKind.ofMembers?_toFields h]

/-! ### Documents -/

namespace Document

/-- The whole numbers of a document have as many bits as their fields. -/
structure Fits (d : Document Float32) : Prop where
  engine : d.engine.Fits
  prefabs : ∀ p ∈ d.prefabs, p.kind.Fits
  repetitions : d.repetitions < 2 ^ 32
  seed : ∀ n ∈ d.seed, n < 2 ^ 64

/-- The single-precision numbers of a document: the weights of its rules, the sizes and the spans of
its tiles, its space and its scatter area. -/
def numbers (d : Document Float32) : List Float32 :=
  d.rules.flatMap Rule.numbers ++ d.prefabs.flatMap (fun p => p.kind.numbers) ++
    d.space.toList.flatMap SpaceConfig.numbers ++ d.scatter.toList.flatMap ScatterArea.numbers

theorem fits_of_ofJson? {v : Json} {d : Document Float32} (h : ofJson? v = some d) : d.Fits := by
  simp only [ofJson?, Option.bind_eq_bind, Option.bind_eq_some_iff, Option.pure_def,
    Option.some.injEq] at h
  obtain ⟨fields, -, start, -, engine, hengine, rules, -, links, -, prefabs, hprefabs, space, -,
    scatter, -, repetitions, hrepetitions, seed, hseed, rfl⟩ := h
  exact {
    engine := EngineSettings.agrees.fits_of_withDefault ⟨by decide, by decide⟩ hengine
    prefabs := Prefab.agrees.list.fits_of_withDefault (by simp) hprefabs
    repetitions := (nat_agrees 32).fits_of_withDefault (by decide) hrepetitions
    seed := (optionalNat_agrees 64).fits_of_withDefault (by simp) hseed }

/-- **Documents.** -/
theorem agrees : Agrees ofJson? toJson Fits numbers where
  fits_of_read := fits_of_ofJson?
  spelled d := spelled_ofFields (by
    simp [text_agrees.spelled, EngineSettings.agrees.spelled, Rule.agrees.list.spelled,
      Link.list_agrees.spelled, Prefab.agrees.list.spelled, SpaceConfig.option_agrees.spelled,
      ScatterArea.option_agrees.spelled, (nat_agrees 32).spelled, (optionalNat_agrees 64).spelled])
  read_write {d} h := by
    simp [ofJson?, toJson, fields?_ofFields, text_agrees.read_write,
      EngineSettings.agrees.read_write h.engine, Rule.agrees.list.read_write,
      Link.list_agrees.read_write, Prefab.agrees.list.read_write h.prefabs,
      SpaceConfig.option_agrees.read_write, ScatterArea.option_agrees.read_write,
      (nat_agrees 32).read_write h.repetitions, (optionalNat_agrees 64).read_write h.seed, numbers]

end Document

end SpatialGrammar
