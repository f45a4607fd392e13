/-
  Values of the emitted structs through JSON and back.

  A struct is written into a value that starts as null, and becomes an object with the first member
  that is written.

  * `Program.Lost`: what does not come back: an optional struct without any member, and a member
    left out that is constructed with a value;
  * `Program.roundTrip_iff`: everything else does.
-/
import DapDbgeng.Protgen.Header

namespace DapDbgeng.Protgen

/-- A struct without a member to write. -/
def Value.blank : Value → Bool
  | .struct members => members.all fun m => m.2.absent
  | _ => false

namespace Program

variable {P : Program}

/-! ## Lookups -/

theorem encodeMember_eq (members : List (String × Value)) (key : String) :
    P.encodeMember members key = (Dict.get? members key).map fun v => (v, P.encode v) := by
  induction members with
  | nil => rfl
  | cons m members ih =>
    rw [encodeMember, Dict.get?_cons]
    split
    · rfl
    · exact ih

theorem decodeMember_eq (members : List (String × Json)) (key : String) :
    P.decodeMember members key = (Dict.get? members key).map fun j => (j, P.decode j) := by
  induction members with
  | nil => rfl
  | cons m members ih =>
    rw [decodeMember, Dict.get?_cons]
    split
    · rfl
    · exact ih

theorem lookup_eq (key : String) (members : List (String × Json)) :
    Json.lookup key members = Dict.get? members key := by
  induction members with
  | nil => rfl
  | cons m members ih => rw [Json.lookup, Dict.get?_cons, ih]

theorem decode_struct (j : Json) (name : String) : P.decode j (.struct name) =
    P.readStruct name fun key => (j.find key).map fun x => (x, P.decode x) := by
  cases j with
  | obj members =>
    rw [decode]
    refine congrArg _ (funext fun key => ?_)
    rw [decodeMember_eq, Json.find, lookup_eq]
  | _ => simp only [decode, Json.find, Option.map_none]

/-- Null, or an object. -/
def Json.writable (j : Json) : Prop := j.isNull = true ∨ j.isObject = true

theorem assign_spec {j : Json} (hj : Json.writable j) (key : String) (x : Json) :
    ∃ j', assign key x j = .ok j' ∧ j'.isObject = true ∧
      ∀ k, j'.find k = if k = key then some x else j.find k := by
  cases j with
  | null =>
    refine ⟨_, rfl, rfl, fun k => ?_⟩
    rw [Json.find, lookup_eq, Dict.get?_cons, Dict.get?_nil]
    simp [Json.find, eq_comm]
  | obj members =>
    refine ⟨_, rfl, rfl, fun k => ?_⟩
    rw [Json.find, Json.find, lookup_eq, lookup_eq, Dict.get?_set]
  | _ => rcases hj with hj | hj <;> cases hj

/-! ## Reading a struct -/

section

variable {find : String → Option (Json × (Ty → Except String Value))}

/-- What a member is after it has been read. -/
def outcome (find : String → Option (Json × (Ty → Except String Value))) (r : Dict Value)
    (p : Property) : Except String (Option Value) :=
  match find p.jsonName with
  | none => .ok (r.get? p.fieldName)
  | some (j, decode) =>
    if p.cpp.ty ≠ .json ∧ j.isNull = true then .ok (r.get? p.fieldName)
    else some <$> decode p.cpp.ty

theorem readMember_spec
    (find : String → Option (Json × (Ty → Except String Value))) {r : Dict Value} {p : Property}
    (hp : p.fieldName ∈ r.keys) :
    match outcome find r p with
    | .error e => readMember find r p = .error e
    | .ok x => ∃ r', readMember find r p = .ok r' ∧ r'.keys = r.keys ∧
        ∀ f, r'.get? f = if f = p.fieldName then x else r.get? f := by
  have hsame : ∃ r', (Except.ok r : Except String (Dict Value)) = .ok r' ∧ r'.keys = r.keys ∧
      ∀ f, r'.get? f = if f = p.fieldName then r.get? p.fieldName else r.get? f := by
    refine ⟨r, rfl, rfl, fun f => ?_⟩
    split
    · rename_i hf
      rw [hf]
    · rfl
  have hread (decode : Ty → Except String Value) : match some <$> decode p.cpp.ty with
      | .error e => (decode p.cpp.ty >>= fun v => .ok (r.set p.fieldName v)) = .error e
      | .ok x => ∃ r', (decode p.cpp.ty >>= fun v => .ok (r.set p.fieldName v)) = .ok r' ∧
          r'.keys = r.keys ∧ ∀ f, r'.get? f = if f = p.fieldName then x else r.get? f := by
    cases decode p.cpp.ty with
    | error e => rfl
    | ok v =>
      refine ⟨r.set p.fieldName v, rfl, ?_, fun f => Dict.get?_set _ _ _ _⟩
      rw [Dict.keys_set, if_pos hp]
  rw [outcome, readMember]
  cases find p.jsonName with
  | none => exact hsame
  | some found =>
    obtain ⟨j, decode⟩ := found
    dsimp only
    by_cases hjson : p.cpp.ty = .json
    · rw [if_neg (by simp [hjson]), if_pos hjson]
      exact hread decode
    · by_cases hnull : j.isNull = true
      · rw [if_pos ⟨hjson, hnull⟩, if_neg hjson, if_pos hnull]
        exact hsame
      · rw [if_neg fun h => hnull h.2, if_neg hjson, if_neg hnull]
        exact hread decode

/-- A struct is read as the given one exactly if each of its members is. -/
theorem readMembers_iff {ps : List Property} {r₀ r : Dict Value}
    (hfields : (ps.map Property.fieldName).Nodup) (hps : ∀ p ∈ ps, p.fieldName ∈ r₀.keys)
    (hkeys : r.keys = r₀.keys) (hnodup : r₀.keys.Nodup) :
    ps.foldlM (readMember find) r₀ = .ok r ↔
      (∀ p ∈ ps, outcome find r₀ p = .ok (r.get? p.fieldName)) ∧
        ∀ f ∉ ps.map Property.fieldName, r.get? f = r₀.get? f := by
  induction ps generalizing r₀ with
  | nil =>
    constructor
    · rintro h
      cases h
      simp
    · rintro ⟨-, h⟩
      have hr : r = r₀ := Dict.ext_get? hkeys (by rw [hkeys]; exact hnodup)
        fun key => h key List.not_mem_nil
      rw [hr]
      rfl
  | cons p ps ih =>
    rw [List.map_cons, List.nodup_cons] at hfields
    obtain ⟨hp, hfields⟩ := hfields
    have hspec := readMember_spec find (hps p (.head _))
    rw [List.foldlM_cons]
    cases houtcome : outcome find r₀ p with
    | error e =>
      rw [houtcome] at hspec
      dsimp only at hspec
      rw [hspec]
      constructor
      · intro h
        cases h
      · rintro ⟨h, -⟩
        rw [h p (.head _)] at houtcome
        cases houtcome
    | ok x =>
      rw [houtcome] at hspec
      obtain ⟨r₁, hr₁, hkeys₁, hget₁⟩ := hspec
      have hsame {q : Property} (hq : q ∈ ps) : outcome find r₁ q = outcome find r₀ q := by
        have hne : q.fieldName ≠ p.fieldName := fun heq =>
          hp (heq ▸ List.mem_map.2 ⟨q, hq, rfl⟩)
        rw [outcome, outcome, hget₁, if_neg hne]
      have ih := ih hfields (fun q hq => by rw [hkeys₁]; exact hps q (.tail _ hq))
        (by rw [hkeys₁, hkeys]) (by rw [hkeys₁]; exact hnodup)
      rw [hr₁]
      refine Iff.trans ih ⟨?_, ?_⟩
      · rintro ⟨hps', hrest⟩
        have hx : r.get? p.fieldName = x := by rw [hrest _ hp, hget₁, if_pos rfl]
        refine ⟨?_, fun f hf => ?_⟩
        · rintro q hq
          rcases List.mem_cons.1 hq with rfl | hq
          · rw [houtcome, hx]
          · rw [← hsame hq]
            exact hps' q hq
        · rw [List.map_cons, List.mem_cons, not_or] at hf
          rw [hrest f hf.2, hget₁, if_neg hf.1]
      · rintro ⟨hps', hrest⟩
        have hx : r.get? p.fieldName = x := by
          have h := hps' p (.head _)
          rw [houtcome] at h
          exact (Except.ok.inj h).symm
        refine ⟨fun q hq => (hsame hq).trans (hps' q (.tail _ hq)), fun f hf => ?_⟩
        rw [hget₁]
        split
        · rename_i hfp
          rw [hfp, hx]
        · rename_i hfp
          refine hrest f ?_
          rw [List.map_cons, List.mem_cons, not_or]
          exact ⟨hfp, hf⟩

end

/-! ## Writing a struct -/

/-- What the members of a struct have become once they are written. -/
theorem writeMembers_spec {members : List (String × Value)} {ps : List Property}
    (hps : ∀ p ∈ ps, ∃ v, Dict.get? members p.fieldName = some v ∧
      (v.absent = true → p.cpp.ty = .json ∨ p.cpp.optional = true) ∧
      (v.absent = false → ∃ j, P.encode v p.cpp.ty = .ok j))
    (hnames : (ps.map Property.jsonName).Nodup) {j₀ : Json} (hj₀ : Json.writable j₀) :
    ∃ j, ps.foldlM (writeMember (P.encodeMember members)) j₀ = .ok j ∧ Json.writable j ∧
      (∀ p ∈ ps, ∀ v, Dict.get? members p.fieldName = some v →
        if v.absent then j.find p.jsonName = j₀.find p.jsonName
        else ∃ x, P.encode v p.cpp.ty = .ok x ∧ j.find p.jsonName = some x) ∧
      (∀ key ∉ ps.map Property.jsonName, j.find key = j₀.find key) ∧
      (j.isNull = true ↔ j₀.isNull = true ∧ ∀ p ∈ ps, ∀ v,
        Dict.get? members p.fieldName = some v → v.absent = true) := by
  induction ps generalizing j₀ with
  | nil => exact ⟨j₀, rfl, hj₀, by simp, fun _ _ => rfl, by simp⟩
  | cons p ps ih =>
    rw [List.map_cons, List.nodup_cons] at hnames
    obtain ⟨hp, hnames⟩ := hnames
    obtain ⟨v, hv, hleft, hwrite⟩ := hps p (.head _)
    have hps' := fun q hq => hps q (.tail _ hq)
    have hmember : writeMember (P.encodeMember members) j₀ p =
        if v.absent then .ok j₀ else P.encode v p.cpp.ty >>= fun x => assign p.jsonName x j₀ := by
      rw [writeMember, encodeMember_eq, hv]
      dsimp only [Option.map_some]
      cases habsent : v.absent with
      | true =>
        rcases hleft habsent with hjson | hopt
        · simp [hjson]
        · by_cases hjson : p.cpp.ty = .json
          · simp [hjson]
          · simp [hjson, hopt]
      | false => simp
    have hfind : ∃ j₁, writeMember (P.encodeMember members) j₀ p = .ok j₁ ∧ Json.writable j₁ ∧
        (if v.absent then j₁ = j₀ else ∃ x, P.encode v p.cpp.ty = .ok x ∧ j₁.isObject = true ∧
          ∀ k, j₁.find k = if k = p.jsonName then some x else j₀.find k) := by
      rw [hmember]
      cases habsent : v.absent with
      | true => exact ⟨j₀, rfl, hj₀, rfl⟩
      | false =>
        obtain ⟨x, hx⟩ := hwrite habsent
        obtain ⟨j₁, hassign, hobject, hget⟩ := assign_spec hj₀ p.jsonName x
        refine ⟨j₁, ?_, .inr hobject, x, hx, hobject, hget⟩
        rw [hx]
        exact hassign
    obtain ⟨j₁, hj₁, hwritable, hcase⟩ := hfind
    obtain ⟨j, hj, hjw, hmem, hother, hnull⟩ := ih hps' hnames hwritable
    refine ⟨j, ?_, hjw, ?_, ?_, ?_⟩
    · rw [List.foldlM_cons, hj₁]
      exact hj
    · rintro q hq w hw
      rcases List.mem_cons.1 hq with rfl | hq
      · obtain rfl : v = w := Option.some.inj (hv.symm.trans hw)
        rw [hother _ hp]
        cases habsent : v.absent with
        | true =>
          rw [habsent] at hcase
          exact congrArg (·.find q.jsonName) hcase
        | false =>
          rw [habsent] at hcase
          obtain ⟨x, hx, -, hget⟩ := hcase
          exact ⟨x, hx, by rw [hget, if_pos rfl]⟩
      · have hne : q.jsonName ≠ p.jsonName := fun heq =>
          hp (heq ▸ List.mem_map.2 ⟨q, hq, rfl⟩)
        have hq' := hmem q hq w hw
        cases habsent : w.absent with
        | true =>
          rw [habsent, if_pos rfl] at hq'
          rw [if_pos rfl, hq']
          cases hv' : v.absent with
          | true =>
            rw [hv'] at hcase
            exact congrArg (·.find q.jsonName) hcase
          | false =>
            rw [hv'] at hcase
            obtain ⟨x, -, -, hget⟩ := hcase
            rw [hget, if_neg hne]
        | false => rwa [habsent] at hq'
    · rintro key hkey
      rw [List.map_cons, List.mem_cons, not_or] at hkey
      rw [hother key hkey.2]
      cases hv' : v.absent with
      | true =>
        rw [hv'] at hcase
        exact congrArg (·.find key) hcase
      | false =>
        rw [hv'] at hcase
        obtain ⟨x, -, -, hget⟩ := hcase
        rw [hget, if_neg hkey.1]
    · rw [hnull]
      cases hv' : v.absent with
      | true =>
        rw [hv'] at hcase
        obtain rfl : j₁ = j₀ := hcase
        refine and_congr_right fun _ => ⟨?_, fun h q hq => h q (.tail _ hq)⟩
        rintro h q hq w hw
        rcases List.mem_cons.1 hq with rfl | hq
        · rw [hv] at hw
          cases hw
          exact hv'
        · exact h q hq w hw
      | false =>
        rw [hv'] at hcase
        obtain ⟨x, -, hobject, -⟩ := hcase
        constructor
        · rintro ⟨h, -⟩
          cases j₁ with
          | null => cases hobject
          | _ => cases h
        · rintro ⟨-, h⟩
          have habsent := h p (.head _) v hv
          rw [hv'] at habsent
          cases habsent

/-! ## What does not come back -/

/-- An optional struct without a member to write, or a member that is left out although the struct
is constructed with a value for it. -/
inductive Lost (P : Program) : Ty → Value → Prop
  | blank {name : String} {properties : List Property} {members : List (String × Value)}
      {p : Property} {v : Value} (hs : P.structs.get? name = some properties)
      (hp : p ∈ properties) (hv : Dict.get? members p.fieldName = some v)
      (hoptional : p.cpp.optional = true) (hblank : v.blank = true) :
      Lost P (.struct name) (.struct members)
  | unset {name : String} {properties : List Property} {members : List (String × Value)}
      {p : Property} {v : Value} (hs : P.structs.get? name = some properties)
      (hp : p ∈ properties) (hv : Dict.get? members p.fieldName = some v)
      (habsent : v.absent = true) (hliteral : p.defaultLiteral.isSome = true) :
      Lost P (.struct name) (.struct members)
  | member {name : String} {properties : List Property} {members : List (String × Value)}
      {p : Property} {v : Value} (hs : P.structs.get? name = some properties)
      (hp : p ∈ properties) (hv : Dict.get? members p.fieldName = some v)
      (h : Lost P p.cpp.ty v) : Lost P (.struct name) (.struct members)
  | item {ty : Ty} {items : List Value} {v : Value} (hv : v ∈ items) (h : Lost P ty v) :
      Lost P (.vector ty) (.vector items)
  | entry {ty : Ty} {entries : List (String × Value)} {e : String × Value} (he : e ∈ entries)
      (h : Lost P ty e.2) : Lost P (.map ty) (.map entries)

theorem literal_present {enums : Dict EnumModel} {ty : Ty} {l : Literal} {v : Value}
    (h : l.value enums ty = some v) : v.absent = false ∧ ∀ name, ty ≠ .struct name := by
  cases ty <;> cases l <;> simp only [Literal.value, reduceCtorEq] at h
  · cases h
    exact ⟨rfl, fun _ => nofun⟩
  · split at h
    · cases h
      exact ⟨rfl, fun _ => nofun⟩
    · cases h
  · cases h
    exact ⟨rfl, fun _ => nofun⟩
  · obtain ⟨w, -, rfl⟩ := Option.map_eq_some_iff.1 h
    exact ⟨rfl, fun _ => nofun⟩

/-- A member that is left out and stays as it is constructed keeps its value exactly if it has no
initializer. -/
theorem initial_absent {p : Property} {v w : Value} (hv : P.Initial p v) (hw : w.absent = true)
    (htyped : w = .json .null ∧ p.cpp.ty = .json ∨
      w = .nullopt ∧ p.cpp.ty ≠ .json ∧ p.cpp.optional = true) :
    v = w ↔ p.defaultLiteral.isSome = false := by
  obtain ⟨defined, -, hdefault⟩ := hv
  rw [memberDefault] at hdefault
  cases hl : p.defaultLiteral with
  | some l =>
    rw [hl] at hdefault
    obtain ⟨hpresent, -⟩ := literal_present hdefault
    constructor
    · rintro rfl
      rw [hw] at hpresent
      cases hpresent
    · intro h
      cases h
  | none =>
    rw [hl] at hdefault
    refine iff_of_true ?_ rfl
    rcases htyped with ⟨rfl, hty⟩ | ⟨rfl, hty, hopt⟩
    · dsimp only at hdefault
      rw [p.cpp.raw hty, hty] at hdefault
      exact (Option.some.inj hdefault).symm
    · dsimp only at hdefault
      rw [hopt, if_pos rfl] at hdefault
      split at hdefault
      · obtain ⟨_, -, h⟩ := Option.map_eq_some_iff.1 hdefault
        exact h.symm
      · exact (Option.some.inj hdefault).symm

/-- A required struct is constructed as the struct is. -/
theorem initial_struct {p : Property} {v : Value} {name : String} (hv : P.Initial p v)
    (hty : p.cpp.ty = .struct name) (hrequired : p.cpp.optional = false) :
    P.defaults.get? name = some v := by
  obtain ⟨defined, hdefined, hdefault⟩ := hv
  rw [memberDefault] at hdefault
  cases hl : p.defaultLiteral with
  | some l =>
    rw [hl] at hdefault
    exact absurd hty ((literal_present hdefault).2 name)
  | none =>
    rw [hl] at hdefault
    dsimp only at hdefault
    rw [if_neg (by rw [hrequired]; simp), hty] at hdefault
    exact hdefined _ _ hdefault

theorem initial_optional {p : Property} {v : Value} {name : String} (hv : P.Initial p v)
    (hty : p.cpp.ty = .struct name) (hoptional : p.cpp.optional = true) : v = .nullopt := by
  obtain ⟨defined, -, hdefault⟩ := hv
  rw [memberDefault] at hdefault
  cases hl : p.defaultLiteral with
  | some l =>
    rw [hl] at hdefault
    exact absurd hty ((literal_present hdefault).2 name)
  | none =>
    rw [hl] at hdefault
    dsimp only at hdefault
    rw [if_pos hoptional, hty] at hdefault
    obtain ⟨_, -, h⟩ := Option.map_eq_some_iff.1 hdefault
    exact h.symm

/-! ## Lists and maps -/

theorem items_roundTrip (ty : Ty) (items : List Value) (h : ∀ v ∈ items, ∃ j,
      P.encode v ty = .ok j ∧ (P.decode j ty = .ok v ↔ ¬P.Lost ty v)) :
    ∃ js, P.encodeItems items ty = .ok js ∧
      (P.decodeItems js ty = .ok items ↔ ∀ v ∈ items, ¬P.Lost ty v) := by
  induction items with
  | nil => exact ⟨[], rfl, by simp [decodeItems]⟩
  | cons v items ih =>
    obtain ⟨j, hj, hv⟩ := h v (.head _)
    obtain ⟨js, hjs, hitems⟩ := ih fun w hw => h w (.tail _ hw)
    refine ⟨j :: js, by rw [encodeItems, hj, hjs]; rfl, ?_⟩
    rw [List.forall_mem_cons, ← hv, ← hitems, decodeItems]
    cases P.decode j ty with
    | error e => simp [bind, Except.bind]
    | ok w =>
      cases P.decodeItems js ty with
      | error e => simp [bind, Except.bind]
      | ok ws => simp [bind, Except.bind, pure, Except.pure]

theorem entries_roundTrip (ty : Ty) (entries : List (String × Value)) (h : ∀ e ∈ entries, ∃ j,
      P.encode e.2 ty = .ok j ∧ (P.decode j ty = .ok e.2 ↔ ¬P.Lost ty e.2)) :
    ∃ js, P.encodeEntries entries ty = .ok js ∧
      (P.decodeEntries js ty = .ok entries ↔ ∀ e ∈ entries, ¬P.Lost ty e.2) := by
  induction entries with
  | nil => exact ⟨[], rfl, by simp [decodeEntries]⟩
  | cons e entries ih =>
    obtain ⟨k, v⟩ := e
    obtain ⟨j, hj, hv⟩ := h (k, v) (.head _)
    obtain ⟨js, hjs, hitems⟩ := ih fun w hw => h w (.tail _ hw)
    refine ⟨(k, j) :: js, by rw [encodeEntries, hj, hjs]; rfl, ?_⟩
    rw [List.forall_mem_cons, ← hv, ← hitems, decodeEntries]
    cases P.decode j ty with
    | error e => simp [bind, Except.bind]
    | ok w =>
      cases P.decodeEntries js ty with
      | error e => simp [bind, Except.bind]
      | ok ws => simp [bind, Except.bind, pure, Except.pure]

/-! ## Enumerations -/

theorem enum_roundTrip {e : EnumModel} (hnames : (e.map EnumValueModel.name).Nodup)
    (hvalues : (e.map EnumValueModel.serializedValue).Nodup) (enum : String) {member : String}
    (h : member ∈ e.map EnumValueModel.name) : ∃ s, enumToJson e enum member = .ok (.str s) ∧
      enumFromJson e enum (.str s) = .ok (.enumerator member) := by
  obtain ⟨v, hv, rfl⟩ := List.mem_map.1 h
  have hfind {f : EnumValueModel → String} (hf : (e.map f).Nodup) :
      e.find? (fun w => f w = f v) = some v := by
    cases hfound : e.find? fun w => f w = f v with
    | none =>
      have h := List.find?_eq_none.1 hfound v hv
      simp at h
    | some w =>
      have hw : f w = f v := by simpa using List.find?_some hfound
      exact congrArg _ (List.inj_on_of_nodup_map hf (List.mem_of_find?_eq_some hfound) hv hw)
  refine ⟨v.serializedValue, ?_, ?_⟩
  · rw [enumToJson, hfind hnames]
  · rw [enumFromJson]
    simp only [Decoder.string, bind, Except.bind]
    rw [hfind hvalues]
    rfl

/-! ## Structs -/

/-- What is lost of one member. -/
def LostMember (P : Program) (p : Property) (v : Value) : Prop :=
  p.cpp.optional = true ∧ v.blank = true ∨
    v.absent = true ∧ p.defaultLiteral.isSome = true ∨ P.Lost p.cpp.ty v

theorem lost_struct {name : String} {properties : List Property} {members : List (String × Value)}
    (hs : P.structs.get? name = some properties) : P.Lost (.struct name) (.struct members) ↔
      ∃ p ∈ properties, ∃ v, Dict.get? members p.fieldName = some v ∧ P.LostMember p v := by
  constructor
  · intro h
    cases h with
    | blank hs' hp hv hoptional hblank =>
      rw [hs] at hs'
      cases hs'
      exact ⟨_, hp, _, hv, .inl ⟨hoptional, hblank⟩⟩
    | unset hs' hp hv habsent hliteral =>
      rw [hs] at hs'
      cases hs'
      exact ⟨_, hp, _, hv, .inr (.inl ⟨habsent, hliteral⟩)⟩
    | member hs' hp hv h =>
      rw [hs] at hs'
      cases hs'
      exact ⟨_, hp, _, hv, .inr (.inr h)⟩
  · rintro ⟨p, hp, v, hv, ⟨hoptional, hblank⟩ | ⟨habsent, hliteral⟩ | h⟩
    · exact .blank hs hp hv hoptional hblank
    · exact .unset hs hp hv habsent hliteral
    · exact .member hs hp hv h

theorem not_lost_of_absent {v : Value} (h : v.absent = true) (ty : Ty) : ¬P.Lost ty v := by
  intro hlost
  cases hlost <;> cases h

theorem not_blank_of_absent {v : Value} (h : v.absent = true) : v.blank = false := by
  cases v with
  | struct => cases h
  | _ => rfl

theorem readMembers_none (ps : List Property) (r : Dict Value) :
    ps.foldlM (readMember fun _ => none) r = .ok r := by
  induction ps with
  | nil => rfl
  | cons p ps ih => exact ih

/-- A value that comes back from JSON, if nothing of it is lost. -/
def Returns (P : Program) (ty : Ty) (v : Value) (j : Json) : Prop :=
  (j.isNull = true → v.blank = true ∨ v.absent = true) ∧ (v.blank = true → j.isNull = true) ∧
    (P.decode j ty = .ok v ↔ ¬P.Lost ty v)

/-- One member of a struct that has been written. -/
theorem outcome_iff (hP : P.Consistent) {p : Property} {v w : Value} {d : Dict Value} {j : Json}
    (hd : d.get? p.fieldName = some w) (hw : P.Initial p w)
    (habsent : v.absent = true → v = .json .null ∧ p.cpp.ty = .json ∨
      v = .nullopt ∧ p.cpp.ty ≠ .json ∧ p.cpp.optional = true)
    (htyped : v.absent = false → P.HasType p.cpp.ty v)
    (hleft : v.absent = true → j.find p.jsonName = none)
    (hwritten : v.absent = false → ∃ x, j.find p.jsonName = some x ∧ P.Returns p.cpp.ty v x) :
    outcome (fun key => (j.find key).map fun x => (x, P.decode x)) d p = .ok (some v) ↔
      ¬P.LostMember p v := by
  rw [outcome]
  cases hv : v.absent with
  | true =>
    rw [hleft hv]
    have hiff := initial_absent hw hv (habsent hv)
    rw [LostMember, hv, not_blank_of_absent hv]
    simp only [Option.map_none, hd, Except.ok.injEq, Option.some.injEq, hiff]
    simp [not_lost_of_absent hv]
  | false =>
    obtain ⟨x, hx, hnull, hblank, hdecode⟩ := hwritten hv
    rw [hx]
    dsimp only [Option.map_some]
    have hread : some <$> P.decode x p.cpp.ty = .ok (some v) ↔ P.decode x p.cpp.ty = .ok v := by
      cases P.decode x p.cpp.ty with
      | error e => simp [Functor.map, Except.map]
      | ok w => simp [Functor.map, Except.map]
    by_cases hskip : p.cpp.ty ≠ .json ∧ x.isNull = true
    · rw [if_pos hskip, hd]
      have hv' : v.blank = true := (hnull hskip.2).resolve_right (by rw [hv]; simp)
      have ht := htyped hv
      -- only a struct is written as null
      cases hty : p.cpp.ty with
      | struct name =>
        cases hopt : p.cpp.optional with
        | true =>
          rw [initial_optional hw hty hopt, LostMember]
          refine iff_of_false ?_ fun h => h (.inl ⟨hopt, hv'⟩)
          intro h
          cases h
          cases hv
        | false =>
          have hdefault := initial_struct hw hty hopt
          have hdecoded : P.decode x p.cpp.ty = .ok w := by
            rw [hty] at ht
            cases ht with
            | struct hs =>
              obtain ⟨members, hmembers, -, -⟩ := hP.default hs
              cases x with
              | null =>
                rw [hty, decode_struct, readStruct, hs, hmembers]
                dsimp only
                rw [show (fun key => (Json.null.find key).map fun x => (x, P.decode x)) =
                  fun _ => none from rfl, readMembers_none]
                rw [hmembers] at hdefault
                cases hdefault
                rfl
              | _ => cases hskip.2
          rw [hdecoded] at hdecode
          rw [LostMember, hopt, hv]
          simp only [Except.ok.injEq, Option.some.injEq] at hdecode ⊢
          rw [hdecode]
          simp
      | _ =>
        rw [hty] at ht
        cases ht
        cases hv'
    · rw [if_neg hskip, hread, hdecode, LostMember, hv]
      have hnotblank : v.blank = false := by
        by_contra h
        have hbl : v.blank = true := by simpa using h
        refine hskip ⟨fun hjson => ?_, hblank hbl⟩
        have ht := htyped hv
        rw [hjson] at ht
        cases ht
        cases hbl
      simp [hnotblank]

theorem struct_roundTrip (hP : P.Consistent) {name : String} {properties : List Property}
    {members : List (String × Value)} (hs : P.structs.get? name = some properties)
    (hfields : (properties.map Property.fieldName).Nodup)
    (hkeys : Dict.keys members = properties.map Property.fieldName)
    (habsent : ∀ p ∈ properties, ∀ v, Dict.get? members p.fieldName = some v →
      v.absent = true → v = .json .null ∧ p.cpp.ty = .json ∨
        v = .nullopt ∧ p.cpp.ty ≠ .json ∧ p.cpp.optional = true)
    (h : ∀ p ∈ properties, ∀ v, Dict.get? members p.fieldName = some v → v.absent = false →
      P.HasType p.cpp.ty v)
    (ih : ∀ p ∈ properties, ∀ v, Dict.get? members p.fieldName = some v → v.absent = false →
      ∃ j, P.encode v p.cpp.ty = .ok j ∧ P.Returns p.cpp.ty v j) :
    ∃ j, P.encode (.struct members) (.struct name) = .ok j ∧
      P.Returns (.struct name) (.struct members) j := by
  have hvalue : ∀ p ∈ properties, ∃ v, Dict.get? members p.fieldName = some v := fun p hp =>
    Dict.mem_keys.1 (hkeys ▸ List.mem_map.2 ⟨p, hp, rfl⟩)
  have hps : ∀ p ∈ properties, ∃ v, Dict.get? members p.fieldName = some v ∧
      (v.absent = true → p.cpp.ty = .json ∨ p.cpp.optional = true) ∧
      (v.absent = false → ∃ j, P.encode v p.cpp.ty = .ok j) := by
    intro p hp
    obtain ⟨v, hv⟩ := hvalue p hp
    refine ⟨v, hv, fun ha => ?_, fun ha => ?_⟩
    · rcases habsent p hp v hv ha with ⟨-, hjson⟩ | ⟨-, -, hopt⟩
      · exact .inl hjson
      · exact .inr hopt
    · obtain ⟨j, hj, -⟩ := ih p hp v hv ha
      exact ⟨j, hj⟩
  obtain ⟨j, hj, -, hmem, -, hnull⟩ := writeMembers_spec hps (hP.jsonNames hs)
    (show Json.writable .null from .inl rfl)
  have hnodup : (Dict.keys members).Nodup := by rw [hkeys]; exact hfields
  have hblank : (Value.struct members).blank = true ↔ ∀ p ∈ properties, ∀ v,
      Dict.get? members p.fieldName = some v → v.absent = true := by
    rw [Value.blank, List.all_eq_true]
    constructor
    · intro hall p hp v hv
      exact hall _ (Dict.mem_of_get? hv)
    · rintro hall ⟨k, v⟩ hmem
      have hk : k ∈ properties.map Property.fieldName :=
        hkeys ▸ List.mem_map.2 ⟨_, hmem, rfl⟩
      obtain ⟨p, hp, rfl⟩ := List.mem_map.1 hk
      exact hall p hp v ((Dict.get?_eq_some hnodup).2 hmem)
  refine ⟨j, by rw [encode, hs]; exact hj, fun hn => .inl (hblank.2 (hnull.1 hn).2),
    fun hb => hnull.2 ⟨rfl, hblank.1 hb⟩, ?_⟩
  obtain ⟨d, hd, hdkeys, hinitial⟩ := hP.default hs
  have hdnodup : (Dict.keys d).Nodup := by rw [hdkeys]; exact hfields
  have hdecode : P.decode j (.struct name) = .ok (.struct members) ↔
      properties.foldlM (readMember fun key => (j.find key).map fun x => (x, P.decode x)) d =
        .ok members := by
    rw [decode_struct, readStruct, hs, hd]
    dsimp only
    cases properties.foldlM (readMember fun key => (j.find key).map fun x => (x, P.decode x)) d with
    | error e => simp [Functor.map, Except.map]
    | ok w => simp [Functor.map, Except.map]
  have hsub : ∀ p ∈ properties, p.fieldName ∈ Dict.keys d := fun p hp => by
    rw [hdkeys]
    exact List.mem_map.2 ⟨p, hp, rfl⟩
  have hrest : ∀ f ∉ properties.map Property.fieldName, Dict.get? members f = Dict.get? d f :=
    fun f hf => by
      rw [Dict.get?_eq_none.2 (by rw [hkeys]; exact hf),
        Dict.get?_eq_none.2 (by rw [hdkeys]; exact hf)]
  rw [hdecode, readMembers_iff hfields hsub (hkeys.trans hdkeys.symm) hdnodup, lost_struct hs]
  have heach : ∀ p ∈ properties, ∀ v, Dict.get? members p.fieldName = some v →
      (outcome (fun key => (j.find key).map fun x => (x, P.decode x)) d p = .ok (some v) ↔
        ¬P.LostMember p v) := by
    intro p hp v hv
    obtain ⟨w, hw⟩ := Dict.mem_keys.1 (hsub p hp)
    obtain ⟨q, hq, hfield, hinit⟩ := hinitial _ (Dict.mem_of_get? hw)
    obtain rfl : q = p := List.inj_on_of_nodup_map hfields hq hp hfield
    have hm := hmem q hp v hv
    refine outcome_iff hP hw hinit (habsent q hp v hv) (h q hp v hv) (fun ha => ?_) fun ha => ?_
    · rw [ha] at hm
      exact hm
    · rw [ha] at hm
      obtain ⟨x, hx, hfind⟩ := hm
      obtain ⟨x', hx', hreturns⟩ := ih q hp v hv ha
      rw [hx] at hx'
      cases hx'
      exact ⟨x, hfind, hreturns⟩
  constructor
  · rintro ⟨hall, -⟩ ⟨p, hp, v, hv, hlost⟩
    exact (heach p hp v hv).1 (by rw [hall p hp, hv]) hlost
  · intro hnone
    refine ⟨fun p hp => ?_, hrest⟩
    obtain ⟨v, hv⟩ := hvalue p hp
    rw [hv]
    exact (heach p hp v hv).2 fun hlost => hnone ⟨p, hp, v, hv, hlost⟩

/-! ## Every value -/

theorem returns_exact {ty : Ty} {v : Value} {j : Json} (hnull : j.isNull = false)
    (hblank : v.blank = false) (hlost : ¬P.Lost ty v) (hdecode : P.decode j ty = .ok v) :
    P.Returns ty v j := by
  refine ⟨fun h => ?_, fun h => ?_, iff_of_true hdecode hlost⟩
  · rw [hnull] at h
    cases h
  · rw [hblank] at h
    cases h

theorem value_roundTrip (hP : P.Consistent)
    (henums : ∀ {name e}, P.enums.get? name = some e →
      (e.map EnumValueModel.serializedValue).Nodup) {ty : Ty} {v : Value} (h : P.HasType ty v) :
    ∃ j, P.encode v ty = .ok j ∧ P.Returns ty v j := by
  induction h with
  | bool b => exact ⟨.bool b, rfl, returns_exact rfl rfl nofun rfl⟩
  | @int32 i h =>
    refine ⟨.int i, rfl, returns_exact rfl rfl nofun ?_⟩
    rw [decode, Decoder.int32, Int.bmod_eq_of_le (by omega) (by omega)]
    rfl
  | @int64 i h =>
    refine ⟨.int i, rfl, returns_exact rfl rfl nofun ?_⟩
    rw [decode, Decoder.int64, Int.bmod_eq_of_le (by omega) (by omega)]
    rfl
  | double text trunc => exact ⟨.float text trunc, rfl, returns_exact rfl rfl nofun rfl⟩
  | string s => exact ⟨.str s, rfl, returns_exact rfl rfl nofun rfl⟩
  | @enum name member e he h =>
    obtain ⟨s, hto, hfrom⟩ := enum_roundTrip (hP.enumNames he) (henums he) name h
    refine ⟨.str s, ?_, returns_exact rfl rfl nofun ?_⟩
    · rw [encode, he]
      exact hto
    · rw [decode, he]
      exact hfrom
  | json j =>
    refine ⟨j, by rw [encode], fun h => .inr ?_, nofun, iff_of_true (by rw [decode]) nofun⟩
    cases j with
    | null => rfl
    | _ => cases h
  | @vector ty items _ ih =>
    obtain ⟨js, hjs, hiff⟩ := items_roundTrip (P := P) ty items fun v hv => by
      obtain ⟨j, hj, -, -, hdecode⟩ := ih v hv
      exact ⟨j, hj, hdecode⟩
    refine ⟨.arr js, by rw [encode, hjs]; rfl, nofun, nofun, ?_⟩
    have hread : P.decode (.arr js) (.vector ty) = .ok (.vector items) ↔
        P.decodeItems js ty = .ok items := by
      rw [decode]
      cases P.decodeItems js ty with
      | error e => simp [Functor.map, Except.map]
      | ok vs => simp [Functor.map, Except.map]
    rw [hread, hiff]
    constructor
    · intro hall hlost
      cases hlost with
      | item hv h => exact hall _ hv h
    · exact fun hnone v hv h => hnone (.item hv h)
  | @map ty entries _ _ ih =>
    obtain ⟨js, hjs, hiff⟩ := entries_roundTrip (P := P) ty entries
      fun e he => by
        obtain ⟨j, hj, -, -, hdecode⟩ := ih e he
        exact ⟨j, hj, hdecode⟩
    refine ⟨.obj js, by rw [encode, hjs]; rfl, nofun, nofun, ?_⟩
    have hread : P.decode (.obj js) (.map ty) = .ok (.map entries) ↔
        P.decodeEntries js ty = .ok entries := by
      rw [decode]
      cases P.decodeEntries js ty with
      | error e => simp [Functor.map, Except.map]
      | ok vs => simp [Functor.map, Except.map]
    rw [hread, hiff]
    constructor
    · intro hall hlost
      cases hlost with
      | entry he h => exact hall _ he h
    · exact fun hnone e he h => hnone (.entry he h)
  | struct hs hfields hkeys habsent h ih => exact struct_roundTrip hP hs hfields hkeys habsent h ih

end Program

/-- A value of an emitted struct comes back from JSON exactly if nothing of it is lost. -/
theorem roundTrip_iff {u : Unicode} {definitions : Dict Schema} {depth : Nat} {g : Generator}
    {P : Program} (hg : generate u definitions depth = some g) (hP : g.program u = some P)
    (henums : ∀ e ∈ g.enums, (e.2.map EnumValueModel.serializedValue).Nodup) {name : String}
    {v : Value} (hv : P.HasType (.struct name) v) :
    (∃ j, P.encode v (.struct name) = .ok j ∧ P.decode j (.struct name) = .ok v) ↔
      ¬P.Lost (.struct name) v := by
  have htables : P.enums = g.enums := by
    obtain ⟨_, -, h⟩ := Option.bind_eq_some_iff.1 hP
    obtain ⟨_, -, h⟩ := Option.bind_eq_some_iff.1 h
    obtain ⟨_, -, h⟩ := Option.bind_eq_some_iff.1 h
    cases h
    rfl
  obtain ⟨j, hj, -, -, hiff⟩ := Program.value_roundTrip (program_consistent hg hP)
    (fun he => henums _ (Dict.mem_of_get? (by rw [← htables]; exact he))) hv
  rw [hj]
  constructor
  · rintro ⟨j', hj', hdecode⟩
    cases hj'
    exact hiff.1 hdecode
  · exact fun hlost => ⟨j, rfl, hiff.2 hlost⟩

/-! ## An optional struct without a member -/

/-- A struct with an optional member of a struct type, all of whose members are optional. -/
def nestedDefinitions : Dict Schema :=
  [("Inner", { type := some (.one "object"),
               properties := some [("x", { type := some (.one "string") })] }),
   ("Outer", { type := some (.one "object"),
               properties := some [("inner", { ref := some "#/definitions/Inner" })] })]

def nestedTables : Generator where
  classes :=
    [("Inner", { properties := [{ jsonName := "x", fieldName := "x", required := false,
                                  cpp := { ty := .string, optional := true } }] }),
     ("Outer", { properties := [{ jsonName := "inner", fieldName := "inner", required := false,
                                  cpp := { ty := .struct "Inner", optional := true } }] })]
  definitionTypeNames := [("Inner", "Inner"), ("Outer", "Outer")]

def nestedProgram : Program where
  enums := []
  structs := nestedTables.classes.map fun c => (c.1, c.2.properties)
  defaults := [("Inner", .struct [("x", .nullopt)]), ("Outer", .struct [("inner", .nullopt)])]

theorem nested_generated : generate .ascii nestedDefinitions 8 = some nestedTables := rfl

theorem nested_program : nestedTables.program .ascii = some nestedProgram := rfl

/-- The member is there, and has nothing in it. -/
def emptyInner : Value := .struct [("inner", .struct [("x", .nullopt)])]

theorem emptyInner_hasType : nestedProgram.HasType (.struct "Outer") emptyInner := by
  have hinner : nestedProgram.HasType (.struct "Inner") (.struct [("x", .nullopt)]) := by
    refine .struct rfl (by decide) rfl ?_ ?_
    · rintro p hp v hv -
      rw [List.mem_singleton.1 hp] at hv ⊢
      cases hv
      exact .inr ⟨rfl, nofun, rfl⟩
    · rintro p hp v hv hpresent
      rw [List.mem_singleton.1 hp] at hv
      cases hv
      cases hpresent
  refine .struct rfl (by decide) rfl ?_ ?_
  · rintro p hp v hv habsent
    rw [List.mem_singleton.1 hp] at hv
    cases hv
    cases habsent
  · rintro p hp v hv -
    rw [List.mem_singleton.1 hp] at hv ⊢
    cases hv
    exact hinner

/-- It is written as null, and read as no value. -/
theorem emptyInner_lost : generate .ascii nestedDefinitions 8 = some nestedTables ∧
    nestedTables.program .ascii = some nestedProgram ∧
      nestedProgram.HasType (.struct "Outer") emptyInner ∧
        ¬∃ j, nestedProgram.encode emptyInner (.struct "Outer") = .ok j ∧
          nestedProgram.decode j (.struct "Outer") = .ok emptyInner := by
  refine ⟨nested_generated, nested_program, emptyInner_hasType, ?_⟩
  rintro ⟨j, hj, hdecode⟩
  have hwritten : nestedProgram.encode emptyInner (.struct "Outer") =
      .ok (.obj [("inner", .null)]) := rfl
  rw [hwritten] at hj
  cases hj
  have hread : nestedProgram.decode (.obj [("inner", .null)]) (.struct "Outer") =
      .ok (.struct [("inner", .nullopt)]) := rfl
  rw [hread] at hdecode
  cases hdecode

theorem roundTrip_iff_emptyInner : nestedProgram.HasType (.struct "Outer") emptyInner ∧
    ((∃ j, nestedProgram.encode emptyInner (.struct "Outer") = .ok j ∧
      nestedProgram.decode j (.struct "Outer") = .ok emptyInner) ↔
        ¬nestedProgram.Lost (.struct "Outer") emptyInner) :=
  ⟨emptyInner_hasType, roundTrip_iff nested_generated nested_program nofun emptyInner_hasType⟩

end DapDbgeng.Protgen
