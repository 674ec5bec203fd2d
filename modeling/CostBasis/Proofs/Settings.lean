import CostBasis.Settings
import CostBasis.Proofs.Json.Fields
import CostBasis.Proofs.Outcome
import CostBasis.Proofs.Text

/-!
# Loading settings

The settings that are accepted are those that hold.  Fields that a text does not give have their
defaults, and a file has to hold before anything overrides it.
-/

namespace CostBasis

theorem Level.mem_all (level : Level) : level ∈ Level.all := by cases level <;> decide

namespace Settings

theorem validate_eq_ok_iff {s : Settings} :
    s.validate = .ok () ↔ 0 < s.channelCapacity ∧ ∃ level : Level, s.logLevel = level.name := by
  have known : (Level.all.map Level.name).contains s.logLevel = true
      ↔ ∃ level : Level, s.logLevel = level.name := by
    rw [List.contains_iff_mem, List.mem_map]
    exact ⟨fun ⟨level, _, named⟩ => ⟨level, named.symm⟩,
      fun ⟨level, named⟩ => ⟨level, level.mem_all, named.symm⟩⟩
  rw [validate, ← known, Nat.pos_iff_ne_zero]
  split
  next zero => exact iff_of_false nofun fun both => both.1 zero
  next nonzero =>
    split
    next holds => exact iff_of_true rfl ⟨nonzero, holds⟩
    next unknown => exact iff_of_false nofun fun both => unknown both.2

/-! ## Texts -/

/-- The fields that a text gives. -/
structure Given where
  defaultMethod : Option Method := none
  channelCapacity : Option Nat := none
  logLevel : Option String := none
  jsonLogs : Option Bool := none

namespace Given

/-- What is given, and the defaults for the rest. -/
def settings (g : Given) : Settings where
  defaultMethod := g.defaultMethod.getD Method.default
  channelCapacity := g.channelCapacity.getD defaultChannelCapacity
  logLevel := g.logLevel.getD Level.info.name
  jsonLogs := g.jsonLogs.getD false

/-- The fields that the members of an object give, each of its type and none of them twice. -/
structure By (members : List (String × Json)) (g : Given) : Prop where
  distinct : ((members.map Prod.fst).filter fieldNames.contains).Nodup
  defaultMethod : Json.States members "default_cost_basis_method" Method.ofJson? g.defaultMethod
  channelCapacity : Json.States members "update_channel_capacity" Json.count? g.channelCapacity
  logLevel : Json.States members "log_level" Json.text? g.logLevel
  jsonLogs : Json.States members "json_logs" Json.bool? g.jsonLogs

end Given

/-- The settings that are read from an object are those that its members give. -/
theorem ofJson?_record_eq_some_iff {members : List (String × Json)} {s : Settings} :
    ofJson? (.record members) = some s ↔ ∃ g : Given, g.By members ∧ s = g.settings := by
  have fields : (Json.record members).fields? fieldNames = Json.select? fieldNames members := by
    rw [Json.record, Json.fields?, Json.named?_record]
    rfl
  -- The names that come twice among the known members are those that come twice in the object.
  have names : (members.map Prod.fst).filter fieldNames.contains
      = (members.filter fun m => fieldNames.contains m.1).map Prod.fst := List.filter_map
  simp only [ofJson?, fields, Option.bind_eq_bind, Option.bind_eq_some_iff, Option.pure_def]
  constructor
  · rintro ⟨known, selected, _, method, _, capacity, _, level, _, json, ⟨⟩⟩
    obtain ⟨m, given_method, rfl⟩ := (Json.optional?_eq_some_iff selected (by decide)).mp method
    obtain ⟨n, given_capacity, rfl⟩ := (Json.optional?_eq_some_iff selected (by decide)).mp capacity
    obtain ⟨l, given_level, rfl⟩ := (Json.optional?_eq_some_iff selected (by decide)).mp level
    obtain ⟨b, given_json, rfl⟩ := (Json.optional?_eq_some_iff selected (by decide)).mp json
    obtain ⟨rfl, nodup⟩ := Json.select?_eq_some_iff.mp selected
    exact ⟨⟨m, n, l, b⟩, ⟨names ▸ nodup, given_method, given_capacity, given_level, given_json⟩, rfl⟩
  · rintro ⟨g, given, rfl⟩
    have selected := Json.select?_eq_some_iff.mpr ⟨rfl, names ▸ given.distinct⟩
    exact ⟨_, selected,
      _, (Json.optional?_eq_some_iff selected (by decide)).mpr ⟨_, given.defaultMethod, rfl⟩,
      _, (Json.optional?_eq_some_iff selected (by decide)).mpr ⟨_, given.channelCapacity, rfl⟩,
      _, (Json.optional?_eq_some_iff selected (by decide)).mpr ⟨_, given.logLevel, rfl⟩,
      _, (Json.optional?_eq_some_iff selected (by decide)).mpr ⟨_, given.jsonLogs, rfl⟩, rfl⟩

theorem ofJson?_toJson {s : Settings} (counted : s.channelCapacity < pow2 64) :
    ofJson? s.toJson = some s := by
  have capacity := Json.count?_count counted
  rw [ofJson?, toJson, Json.fields?_record]
  · simp [Json.optional?, List.lookup_cons, capacity, Json.bool?]
  · rfl
  · decide

theorem written_toJson (s : Settings) : s.toJson.Written := by
  refine Json.written_record ?_
  simp [Method.toJson, Json.written_text, Json.written_count, Json.Written]

theorem parse_of_ofJson? {text : String} {j : Json} {s : Settings} (read : Json.parse? text = some j)
    (settings : ofJson? j = some s) : parse text = s.validate.map fun _ => s := by
  have parsed : parse text = do
      s.validate
      return s := by
    rw [parse, read, Option.bind_some, settings]
  rw [parsed]
  cases s.validate <;> rfl

theorem parse_eq_ok_iff {text : String} {s : Settings} : parse text = .ok s ↔
    (Json.parse? text).bind ofJson? = some s ∧ s.validate = .ok () := by
  rw [parse]
  cases (Json.parse? text).bind ofJson? with
  | none => exact iff_of_false nofun fun both => nomatch both.1
  | some read =>
    simp only [bind_eq_ok, Option.some.injEq]
    constructor
    · rintro ⟨_, holds, ⟨⟩⟩
      exact ⟨rfl, holds⟩
    · rintro ⟨rfl, holds⟩
      exact ⟨(), holds, rfl⟩

/-! ## Files and overrides -/

/-- Settings that hold still do after an override if the level that it names is one. -/
theorem validate_override {s : Settings} (holds : s.validate = .ok ()) (o : Overrides) :
    (s.override o).validate = .ok () ↔ ∀ name ∈ o.logLevel, ∃ level : Level, name = level.name := by
  rw [validate_eq_ok_iff] at holds ⊢
  -- No override touches the capacity, so that only the level can stop settings that held before.
  simp only [override, holds.1, true_and]
  cases o.logLevel with
  | none => simpa using holds.2
  | some name => simp

theorem settings_ofFile_eq_ok_iff {path : String} {file : File} {s : Settings} :
    (SettingsFile.ofFile path file).settings = .ok s ↔
      ∃ text, file.text? = some text ∧ parse text = .ok s := by
  rw [SettingsFile.settings, SettingsFile.ofFile]
  cases file.text? with
  | none => exact iff_of_false nofun nofun
  | some text => simp [mapError_eq_ok]

theorem load_eq_ok_iff {file : Option SettingsFile} {o : Overrides} {s : Settings} :
    load file o = .ok s ↔ ∃ base, file.elim (.ok {}) SettingsFile.settings = .ok base ∧
      (base.override o).validate = .ok () ∧ s = base.override o := by
  -- What follows the base is the same with a file and without one.
  have staged : load file o = file.elim (.ok {}) SettingsFile.settings >>= fun base => do
      (base.override o).validate.mapError .invalid
      return base.override o := by
    cases file <;> rfl
  simp only [staged, bind_eq_ok, mapError_eq_ok]
  refine exists_congr fun base => and_congr_right fun _ => ?_
  constructor
  · rintro ⟨_, holds, ⟨⟩⟩
    exact ⟨holds, rfl⟩
  · rintro ⟨holds, rfl⟩
    exact ⟨(), holds, rfl⟩

/-- What is loaded are the settings of a text that holds by itself, or the defaults, with a level put over
them that is one, and with JSON log lines turned on or left as they are. -/
theorem loads_exactly_valid :
    (∀ s : Settings, s.channelCapacity < pow2 64 →
      parse s.toJson.render = s.validate.map fun _ => s) ∧
    (∀ (text : String) (members : List (String × Json)), Json.parse? text = some (.record members) →
      (∀ g : Given, g.By members → parse text = g.settings.validate.map fun _ => g.settings) ∧
      ∀ s, parse text = .ok s → ∃ g : Given, g.By members ∧ s = g.settings) ∧
    (∀ path file o s, load (some (.ofFile path file)) o = .ok s ↔
      ∃ text base, file.text? = some text ∧ parse text = .ok base ∧
        (∀ name ∈ o.logLevel, ∃ level : Level, name = level.name) ∧
        s = { base with
          logLevel := o.logLevel.getD base.logLevel, jsonLogs := base.jsonLogs || o.jsonLogs }) ∧
    (∀ o s, load none o = .ok s ↔ (∀ name ∈ o.logLevel, ∃ level : Level, name = level.name) ∧
      s = { logLevel := o.logLevel.getD Level.info.name, jsonLogs := o.jsonLogs }) ∧
    ∀ file o s, load file o = .ok s → s.validate = .ok () := by
  refine ⟨fun s counted => ?_, fun text members read => ⟨fun g given => ?_, fun s parsed => ?_⟩,
    fun path file o s => ?_, fun o s => ?_, fun file o s loaded => ?_⟩
  · exact parse_of_ofJson? (Json.parse?_render s.written_toJson) (ofJson?_toJson counted)
  · exact parse_of_ofJson? read (ofJson?_record_eq_some_iff.mpr ⟨g, given, rfl⟩)
  · have settings := (parse_eq_ok_iff.mp parsed).1
    rw [read, Option.bind_some] at settings
    exact ofJson?_record_eq_some_iff.mp settings
  · simp only [load_eq_ok_iff, Option.elim_some, settings_ofFile_eq_ok_iff]
    constructor
    · rintro ⟨base, ⟨text, content, parsed⟩, holds, rfl⟩
      exact ⟨text, base, content, parsed,
        (validate_override (parse_eq_ok_iff.mp parsed).2 o).mp holds, rfl⟩
    · rintro ⟨text, base, content, parsed, level, rfl⟩
      exact ⟨base, ⟨text, content, parsed⟩,
        (validate_override (parse_eq_ok_iff.mp parsed).2 o).mpr level, rfl⟩
  · have holds : validate {} = .ok () := rfl
    simp only [load_eq_ok_iff, Option.elim_none, Except.ok.injEq, exists_eq_left',
      validate_override holds]
    rfl
  · obtain ⟨base, _, holds, rfl⟩ := load_eq_ok_iff.mp loaded
    exact holds

theorem loads_exactly_valid_defaultsAndOverridden :
    let members := [("log_level", Json.text "warn"), ("owner", .null), ("update_channel_capacity", .count 16)]
    let file := File.content (Text.encode (Json.record members).render)
    parse (toJson {}).render = .ok {} ∧
      load (some (.ofFile "settings.json" file)) { logLevel := some "debug", jsonLogs := true }
        = .ok { channelCapacity := 16, logLevel := "debug", jsonLogs := true } := by
  intro members file
  have written : (Json.record members).Written := Json.written_record (by
    simp [members, Json.Written, Json.written_text, Json.written_count])
  have given : Given.By members { channelCapacity := some 16, logLevel := some "warn" } :=
    ⟨by decide, by simp [Json.States, members], ⟨.count 16, by simp [members], by decide⟩,
      ⟨.text "warn", by simp [members], rfl⟩, by simp [Json.States, members]⟩
  have parsed := (loads_exactly_valid.2.1 _ members (Json.parse?_render written)).1 _ given
  have level : ∀ name ∈ some "debug", ∃ level : Level, name = level.name := by
    rintro _ ⟨⟩
    exact ⟨.debug, rfl⟩
  exact ⟨loads_exactly_valid.1 {} (by decide),
    (loads_exactly_valid.2.2.1 _ file _ _).mpr ⟨_, _, Text.decode?_encode _, parsed, level, rfl⟩⟩

end Settings

end CostBasis
