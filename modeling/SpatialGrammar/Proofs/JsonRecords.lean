/-
SpatialGrammar/Proofs/JsonRecords.lean

Readers of data and the writers that they agree with.

`Agrees` is what has to be known of a reader and a writer of one type: what the reader gives
fits, what is written can be spelled, and what is written of data that fit is read back whole if
their numbers are finite, and not at all if one is not.  Lists and options of such data are
again of this kind, and so is a record if each of its fields is.
-/
import SpatialGrammar.Document.Writing
import SpatialGrammar.Json.Fields
import SpatialGrammar.Proofs.JsonText
import SpatialGrammar.Proofs.SingleNumerals

namespace SpatialGrammar.Json

open Binary32 (isFinite)

/-! ### Agreement -/

section Agreement

variable {β γ : Type}

/-- What is got back of data with the given numbers. -/
def gotBack (numbers : List Float32) (b : β) : Option β :=
  if numbers.all isFinite then some b else none

@[simp] theorem gotBack_nil (b : β) : gotBack [] b = some b := rfl

/-- What depends on data that are got back is got back if the data are. -/
@[simp] theorem gotBack_bind_some (xs : List Float32) (b : β) (f : β → γ) :
    ((gotBack xs b).bind fun b => some (f b)) = gotBack xs (f b) := by
  unfold gotBack
  split <;> rfl

@[simp] theorem gotBack_bind (xs : List Float32) (ys : β → List Float32) (b : β) (f : β → γ) :
    ((gotBack xs b).bind fun b => gotBack (ys b) (f b)) = gotBack (xs ++ ys b) (f b) := by
  unfold gotBack
  rw [List.all_append]
  cases xs.all isFinite <;> rfl

@[simp] theorem gotBack_map (xs : List Float32) (b : β) (f : β → γ) :
    (gotBack xs b).map f = gotBack xs (f b) := by
  unfold gotBack
  split <;> rfl

/-- A reader and a writer of data with numbers. -/
structure Agrees (read : Json → Option β) (write : β → Json) (fits : β → Prop)
    (numbers : β → List Float32) : Prop where
  /-- What is read fits. -/
  fits_of_read : ∀ {v b}, read v = some b → fits b
  /-- What is written can be spelled. -/
  spelled : ∀ b, (write b).Spelled
  /-- What is written is read back, as far as its numbers are finite. -/
  read_write : ∀ {b}, fits b → read (write b) = gotBack (numbers b) b

variable {read : Json → Option β} {write : β → Json} {fits : β → Prop}
  {numbers : β → List Float32}

/-- Conditions and numbers may be put differently. -/
theorem Agrees.congr {fits' : β → Prop} {numbers' : β → List Float32}
    (h : Agrees read write fits numbers) (hfits : ∀ b, fits b ↔ fits' b)
    (hnumbers : ∀ b, numbers b = numbers' b) : Agrees read write fits' numbers' where
  fits_of_read hread := (hfits _).mp (h.fits_of_read hread)
  spelled := h.spelled
  read_write hb := by rw [h.read_write ((hfits _).mpr hb), hnumbers]

theorem mapM_read_write (h : Agrees read write fits numbers) {bs : List β}
    (hbs : ∀ b ∈ bs, fits b) : (bs.map write).mapM read = gotBack (bs.flatMap numbers) bs := by
  induction bs with
  | nil => rfl
  | cons b bs ih =>
    rw [List.map_cons, List.mapM_cons, h.read_write (hbs b List.mem_cons_self),
      ih fun b' hb' => hbs b' (List.mem_cons_of_mem b hb')]
    simp

/-- What a list of data is read from consists of what the data are read from. -/
theorem exists_read_of_mapM {vs : List Json} {bs : List β} (h : vs.mapM read = some bs) :
    ∀ b ∈ bs, ∃ v, read v = some b := by
  induction vs generalizing bs with
  | nil => simp [← (Option.some.inj h : [] = bs)]
  | cons v vs ih =>
    simp only [List.mapM_cons, Option.bind_eq_bind, Option.pure_def, Option.bind_eq_some_iff,
      Option.some.injEq] at h
    obtain ⟨b, hb, bs, hbs, rfl⟩ := h
    intro b' hb'
    rcases List.mem_cons.mp hb' with rfl | hmem
    · exact ⟨v, hb⟩
    · exact ih hbs b' hmem

/-- **Lists of data.** -/
theorem Agrees.list (h : Agrees read write fits numbers) :
    Agrees (list? read) (ofList write) (fun bs => ∀ b ∈ bs, fits b)
      (fun bs => bs.flatMap numbers) where
  fits_of_read {v bs} hread b hb := by
    cases v with
    | array vs =>
      obtain ⟨v, hv⟩ := exists_read_of_mapM hread b hb
      exact h.fits_of_read hv
    | _ => simp [list?] at hread
  spelled bs := .array fun v hv => by
    obtain ⟨b, -, rfl⟩ := List.mem_map.mp hv
    exact h.spelled b
  read_write hbs := mapM_read_write h hbs

/-- **Data that may be absent.** -/
theorem Agrees.optional (h : Agrees read write fits numbers) (hnull : ∀ b, write b ≠ .null) :
    Agrees (optional? read) (ofOption write) (fun o => ∀ b ∈ o, fits b)
      (fun o => o.toList.flatMap numbers) where
  fits_of_read {v o} hread b hb := by
    cases hb
    unfold optional? at hread
    split at hread
    next => cases hread
    next =>
      obtain ⟨b, hb, heq⟩ := Option.map_eq_some_iff.mp hread
      cases heq
      exact h.fits_of_read hb
  spelled o := by
    cases o with
    | none => exact .null
    | some b => exact h.spelled b
  read_write {o} ho := by
    cases o with
    | none => rfl
    | some b =>
      -- what is written is not `null`, so it is read as data
      show optional? read (write b) = _
      unfold optional?
      split
      next heq => exact absurd heq (hnull b)
      next => simp [h.read_write (ho b rfl)]

end Agreement

/-! ### Plain data -/

section Plain

theorem bool_agrees : Agrees bool? .bool (fun _ => True) fun _ => [] where
  fits_of_read _ := trivial
  spelled b := .bool b
  read_write _ := rfl

theorem text_agrees : Agrees text? ofText (fun _ => True) fun _ => [] where
  fits_of_read _ := trivial
  spelled s := .text s
  read_write _ := rfl

theorem isNumeral_toDigits (n : Nat) : isNumeral (Nat.toDigits 10 n) := by
  rcases Nat.eq_zero_or_pos n with rfl | hpos
  · decide
  · have hnumeral : isNumeral (Nat.toDigits 10 n ++ []) :=
      (Decimal.leads_toDigits hpos).isNumeral (by simp) rfl
    rwa [List.append_nil] at hnumeral

theorem nat_agrees (bits : Nat) : Agrees (nat? bits) ofNat (· < 2 ^ bits) fun _ => [] where
  fits_of_read {v n} h := by
    cases v with
    | number numeral => simpa using (Option.filter_eq_some_iff.mp h).2
    | _ => simp [nat?] at h
  spelled n := .number (by simpa [Decimal.natText] using isNumeral_toDigits n)
  read_write {n} h := by simpa [nat?, ofNat, Decimal.natText] using h

theorem single_agrees : Agrees single? ofSingle (fun _ => True) fun x => [x] where
  fits_of_read _ := trivial
  spelled x := by
    cases hfinite : isFinite x with
    | true =>
      obtain ⟨numeral, heq, hnumeral, -⟩ := ofSingle_of_isFinite hfinite
      exact heq ▸ .number hnumeral
    | false => exact ofSingle_of_not_isFinite hfinite ▸ .null
  read_write {x} _ := by
    cases hfinite : isFinite x with
    | true => simp [single?_ofSingle hfinite, gotBack, hfinite]
    | false => simp [single?_ofSingle_of_not_isFinite hfinite, gotBack, hfinite]

theorem texts_agree : Agrees (list? text?) (ofList ofText) (fun _ => True) fun _ => [] :=
  text_agrees.list.congr (by simp) (by simp)

theorem optionalNat_agrees (bits : Nat) :
    Agrees (optional? (nat? bits)) (ofOption ofNat) (fun o => ∀ n ∈ o, n < 2 ^ bits) fun _ => [] :=
  ((nat_agrees bits).optional (by simp [ofNat])).congr (by simp) (by simp)

end Plain

/-! ### Records -/

section Records

variable {names : List String} {fields : Fields}

theorem spelled_ofFields (h : ∀ f ∈ fields, f.2.Spelled) : (ofFields fields).Spelled := by
  refine .object (fun m hm => ?_) (fun m hm => ?_) <;> obtain ⟨f, hf, rfl⟩ := List.mem_map.mp hm
  · rfl
  · exact h f hf

theorem namedMembers?_ofFields (fields : Fields) :
    namedMembers? (fields.map fun f => (some f.1, f.2)) = some fields := by
  induction fields with
  | nil => rfl
  | cons f fields ih =>
    simp only [namedMembers?, List.map_cons, List.mapM_cons] at ih ⊢
    rw [ih]
    rfl

/-- **The fields of a record that is written with all of its names.** -/
theorem fields?_ofFields (hnames : fields.map Prod.fst = names) (hnodup : names.Nodup) :
    fields? names (ofFields fields) = some fields := by
  have hall : fields.filter (fun m => names.contains m.1) = fields := by
    rw [List.filter_eq_self]
    intro f hf
    simpa [← hnames] using ⟨f.2, hf⟩
  show (namedMembers? _).bind _ = _
  rw [namedMembers?_ofFields, Option.bind_some, Fields.select?, hall, hnames, if_pos hnodup]

variable {β : Type} {read : Json → Option β} {write : β → Json} {fits : β → Prop}
  {numbers : β → List Float32} {name name' : String} {v : Json} {b default : β}

@[simp] theorem required_cons_self :
    Fields.required ((name, v) :: fields) name read = read v := by
  simp [Fields.required]

@[simp] theorem required_cons_ne (h : name ≠ name') :
    Fields.required ((name', v) :: fields) name read = fields.required name read := by
  simp [Fields.required, List.lookup, beq_false_of_ne h]

@[simp] theorem withDefault_cons_self :
    Fields.withDefault ((name, v) :: fields) name read default = read v := by
  simp [Fields.withDefault]

@[simp] theorem withDefault_cons_ne (h : name ≠ name') :
    Fields.withDefault ((name', v) :: fields) name read default =
      fields.withDefault name read default := by
  simp [Fields.withDefault, List.lookup, beq_false_of_ne h]

theorem Agrees.fits_of_withDefault (h : Agrees read write fits numbers) (hdefault : fits default)
    (hread : fields.withDefault name read default = some b) : fits b := by
  unfold Fields.withDefault at hread
  split at hread
  next => exact Option.some.inj hread ▸ hdefault
  next => exact h.fits_of_read hread

end Records

/-! ### Values that are kept -/

section Keepable

variable {depth : Nat}

theorem areKeepable_iff {vs : List Json} :
    areKeepable depth vs ↔ ∀ v ∈ vs, isKeepable depth v := by
  induction vs with
  | nil => simp [areKeepable]
  | cons v vs ih => simp [areKeepable, ih]

theorem membersKeepable_ofFields {fields : Fields} :
    membersKeepable depth (fields.map fun f => (some f.1, f.2)) ↔
      ∀ f ∈ fields, isKeepable depth f.2 := by
  induction fields with
  | nil => simp [membersKeepable]
  | cons f fields ih => simp [membersKeepable, ih]

@[simp] theorem isKeepable_ofText (s : String) : isKeepable depth (ofText s) := by
  simp [ofText, isKeepable]

@[simp] theorem isKeepable_bool (b : Bool) : isKeepable depth (.bool b) := by
  simp [isKeepable]

@[simp] theorem isKeepable_ofSingle (x : Float32) : isKeepable depth (ofSingle x) := by
  cases hfinite : isFinite x with
  | true =>
    obtain ⟨numeral, heq, -, -, hstepwise⟩ := ofSingle_of_isFinite hfinite
    simp [heq, isKeepable, hstepwise]
  | false => simp [ofSingle_of_not_isFinite hfinite, isKeepable]

/-- A whole number of 64 bits does not exceed double precision. -/
@[simp] theorem isKeepable_ofNat {n : Nat} (h : n < 2 ^ 64) : isKeepable depth (ofNat n) := by
  have hdouble := Decimal.toDouble?_whole false h
  simpa [ofNat, isKeepable, Decimal.natText, stepwise?, Decimal.gathered?_toDigits h,
    Decimal.toSingleStepwise?] using hdouble

@[simp] theorem isKeepable_ofOption {β : Type} {write : β → Json} {o : Option β} :
    isKeepable depth (ofOption write o) ↔ ∀ b ∈ o, isKeepable depth (write b) := by
  cases o <;> simp [ofOption, isKeepable]

@[simp] theorem isKeepable_ofList {β : Type} {write : β → Json} {bs : List β} :
    isKeepable (depth + 1) (ofList write bs) ↔ ∀ b ∈ bs, isKeepable depth (write b) := by
  simp [ofList, isKeepable, areKeepable_iff]

@[simp] theorem isKeepable_ofFields {fields : Fields} :
    isKeepable (depth + 1) (ofFields fields) ↔ ∀ f ∈ fields, isKeepable depth f.2 := by
  simp only [ofFields, isKeepable]
  exact membersKeepable_ofFields

end Keepable

end SpatialGrammar.Json
