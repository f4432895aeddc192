import DocumentQuery.Proofs.CanonicalTerm
import DocumentQuery.Proofs.ExactInteger
import DocumentQuery.Session.Basic

/-!
# Settings over any history of changes

Settings are changed by name, directly or through a session, and go back by name to
what they are at first.  A change that is refused changes nothing, one that is not
changes one setting, and so whatever is called, with whatever values, the settings
stay valid and the options of a query follow from them.
-/

namespace DocumentQuery

theorem Datum.equals_number (a b : Number) :
    (Datum.number a).equals (.number b) = a.equals b := by
  rw [Datum.equals]

/-! ## Settings by name -/

namespace SettingKey

theorem mem_all (key : SettingKey) : key ∈ all := by
  cases key <;> decide

theorem ofName?_eq_some_iff {name : String} {key : SettingKey} :
    ofName? name = some key ↔ key.name = name := by
  constructor
  · intro h
    simpa using List.find?_some h
  · rintro rfl
    cases key <;> rfl

theorem known_or_unknown (name : String) :
    (∃ key : SettingKey, key.name = name) ∨ ∀ key : SettingKey, key.name ≠ name :=
  (em _).imp_right not_exists.1

theorem ofName?_eq_none_iff {name : String} :
    ofName? name = none ↔ ∀ key : SettingKey, key.name ≠ name := by
  simp [ofName?, List.find?_eq_none, mem_all]

end SettingKey

theorem Durability.ofName?_eq_some_iff {name : String} {durability : Durability} :
    ofName? name = some durability ↔ durability.name = name := by
  constructor
  · intro h
    simpa using List.find?_some h
  · rintro rfl
    cases durability <;> rfl

namespace Settings

variable {s s' : Settings} {key : SettingKey} {name : String} {value : Datum}

@[simp] theorem get_name (s : Settings) (key : SettingKey) :
    s.get key.name = .ok (s.value key) := by
  rw [get, Settings.key, SettingKey.ofName?_eq_some_iff.2 rfl]
  rfl

@[simp] theorem set_name (s : Settings) (key : SettingKey) (value : Datum) :
    s.set key.name value = s.change key value := by
  rw [set, Settings.key, SettingKey.ofName?_eq_some_iff.2 rfl]
  rfl

theorem set_of_unknown (h : ∀ key : SettingKey, key.name ≠ name) :
    s.set name value = .error (.unknownSetting name) := by
  rw [set, Settings.key, SettingKey.ofName?_eq_none_iff.2 h]
  rfl

theorem get_of_unknown (h : ∀ key : SettingKey, key.name ≠ name) :
    s.get name = .error (.unknownSetting name) := by
  rw [get, Settings.key, SettingKey.ofName?_eq_none_iff.2 h]
  rfl

/-- What a change that is not refused does. -/
inductive Changed (s : Settings) : SettingKey → Datum → Settings → Prop where
  | defaultDatabase {name : String} : IsPlainName name →
      Changed s .defaultDatabase (.string name) { s with defaultDatabase := name }
  | durability (durability : Durability) :
      Changed s .durability (.string durability.name) { s with durability }
  | profile (profile : Bool) :
      Changed s .profile (.bool profile) { s with profile }
  | maxBatchRows {value : Datum} {rows : Nat} :
      value.asWord? = some rows → rows ≤ rowsLimit →
      Changed s .maxBatchRows value { s with maxBatchRows := rows }

theorem checkRows_eq_ok_iff {rows : Nat} : checkRows rows = .ok () ↔ rows ≤ rowsLimit := by
  unfold checkRows
  split
  · next hmore => simpa using hmore
  · next hfew => simpa using hfew

theorem checked_eq_ok_iff {checked : Except BuildFault Unit} :
    (do checked; return s : Except BuildFault Settings) = .ok s' ↔
      checked = .ok () ∧ s = s' := by
  cases checked <;> simp [bind, Except.bind, pure, Except.pure]

theorem change_eq_ok_iff : s.change key value = .ok s' ↔ s.Changed key value s' := by
  constructor
  · intro h
    cases key with
    | defaultDatabase =>
        cases value with
        | string name =>
            obtain ⟨hcheck, rfl⟩ := checked_eq_ok_iff.1 h
            exact .defaultDatabase (checkName_eq_ok_iff.1 hcheck)
        | _ => cases h
    | durability =>
        cases value with
        | string name =>
            cases hname : Durability.ofName? name with
            | none => simp [change, Datum.asString?, hname] at h
            | some durability =>
                simp only [change, Datum.asString?, hname, Except.ok.injEq] at h
                rw [← h, ← Durability.ofName?_eq_some_iff.1 hname]
                exact .durability durability
        | _ => cases h
    | profile =>
        cases value with
        | bool profile => cases h; exact .profile profile
        | _ => cases h
    | maxBatchRows =>
        cases hrows : value.asWord? with
        | none => simp [change, hrows] at h
        | some rows =>
            simp only [change, hrows] at h
            obtain ⟨hcheck, rfl⟩ := checked_eq_ok_iff.1 h
            exact .maxBatchRows hrows (checkRows_eq_ok_iff.1 hcheck)
  · intro h
    cases h with
    | defaultDatabase hname => exact checked_eq_ok_iff.2 ⟨checkName_eq_ok_iff.2 hname, rfl⟩
    | durability durability =>
        cases durability <;> rfl
    | profile profile => rfl
    | maxBatchRows hrows hlimit =>
        simp only [change, hrows]
        exact checked_eq_ok_iff.2 ⟨checkRows_eq_ok_iff.2 hlimit, rfl⟩

/-- The values that the setting of a name can be changed to. -/
inductive Settable : String → Datum → Prop where
  | defaultDatabase {name : String} :
      IsPlainName name → Settable "default_database" (.string name)
  | hard : Settable "durability" (.string "hard")
  | soft : Settable "durability" (.string "soft")
  | profile (profile : Bool) : Settable "profile" (.bool profile)
  | maxBatchRows {value : Datum} {rows : Nat} :
      value.asWord? = some rows → rows ≤ 1000000 → Settable "max_batch_rows" value

theorem settable_iff (s : Settings) :
    Settable name value ↔
      ∃ key : SettingKey, key.name = name ∧ ∃ s', s.Changed key value s' := by
  constructor
  · intro h
    cases h with
    | defaultDatabase hname => exact ⟨_, rfl, _, .defaultDatabase hname⟩
    | hard => exact ⟨_, rfl, _, .durability .hard⟩
    | soft => exact ⟨_, rfl, _, .durability .soft⟩
    | profile profile => exact ⟨_, rfl, _, .profile profile⟩
    | maxBatchRows hrows hlimit => exact ⟨_, rfl, _, .maxBatchRows hrows hlimit⟩
  · rintro ⟨key, rfl, s', hchanged⟩
    cases hchanged with
    | defaultDatabase hname => exact .defaultDatabase hname
    | durability durability =>
        cases durability with
        | hard => exact .hard
        | soft => exact .soft
    | profile profile => exact .profile profile
    | maxBatchRows hrows hlimit => exact .maxBatchRows hrows hlimit

/-- What is shown of a setting that was changed equals what it was changed to. -/
theorem Changed.equals (h : s.Changed key value s') :
    (s'.value key).equals value = true := by
  cases h with
  | defaultDatabase _ | durability _ | profile _ =>
      simp [Settings.value, Datum.equals]
  | @maxBatchRows value rows hrows _ =>
      cases value with
      | number number =>
          have hword : number.toWord? = some rows := hrows
          exact (Datum.equals_number _ _).trans (Binary.equals_ofNat hword)
      | _ => cases hrows

theorem Changed.others (h : s.Changed key value s') {other : SettingKey}
    (hother : other ≠ key) : s'.value other = s.value other := by
  cases h <;> cases other <;> first | exact absurd rfl hother | rfl

/-! ## Validity -/

/-- The default database has a plain name, and a batch has no more rows than can be
asked for. -/
structure Valid (s : Settings) : Prop where
  defaultDatabase : IsPlainName s.defaultDatabase
  maxBatchRows : s.maxBatchRows ≤ rowsLimit

theorem valid_default : ({} : Settings).Valid := by
  refine ⟨checkName_eq_ok_iff.1 (?_ : checkName .database _ = _), by decide⟩
  rfl

theorem Changed.valid (h : s.Changed key value s') (hs : s.Valid) : s'.Valid := by
  cases h with
  | defaultDatabase hname => exact ⟨hname, hs.maxBatchRows⟩
  | durability _ | profile _ => exact ⟨hs.defaultDatabase, hs.maxBatchRows⟩
  | maxBatchRows _ hlimit => exact ⟨hs.defaultDatabase, hlimit⟩

/-! ## Going back -/

/-- The settings with one of them as it is at first. -/
def restored (s : Settings) : SettingKey → Settings
  | .defaultDatabase => { s with defaultDatabase := ({} : Settings).defaultDatabase }
  | .durability => { s with durability := ({} : Settings).durability }
  | .profile => { s with profile := ({} : Settings).profile }
  | .maxBatchRows => { s with maxBatchRows := ({} : Settings).maxBatchRows }

theorem changed_restored (s : Settings) (key : SettingKey) :
    s.Changed key (({} : Settings).value key) (s.restored key) := by
  cases key with
  | defaultDatabase => exact .defaultDatabase valid_default.defaultDatabase
  | durability => exact .durability _
  | profile => exact .profile _
  | maxBatchRows => exact .maxBatchRows (Datum.asWord?_ofNat (by decide)) (by decide)

@[simp] theorem reset_name (s : Settings) (key : SettingKey) :
    s.reset key.name = .ok (s.restored key) := by
  rw [reset, get_name]
  exact (set_name s key _).trans (change_eq_ok_iff.2 (s.changed_restored key))

theorem reset_of_unknown (h : ∀ key : SettingKey, key.name ≠ name) :
    s.reset name = .error (.unknownSetting name) := by
  rw [reset, get_of_unknown h]
  rfl

theorem reset_eq_ok_iff :
    s.reset name = .ok s' ↔ ∃ key : SettingKey, key.name = name ∧ s.restored key = s' := by
  constructor
  · intro h
    rcases SettingKey.known_or_unknown name with ⟨key, rfl⟩ | hunknown
    · rw [reset_name] at h
      exact ⟨key, rfl, Except.ok.inj h⟩
    · rw [reset_of_unknown hunknown] at h
      cases h
  · rintro ⟨key, rfl, rfl⟩
    exact reset_name s key

theorem value_restored (s : Settings) (key : SettingKey) :
    (s.restored key).value key = ({} : Settings).value key := by
  cases key <;> rfl

/-! ## What is shown after a change -/

theorem set_eq_ok_iff :
    s.set name value = .ok s' ↔
      ∃ key : SettingKey, key.name = name ∧ s.Changed key value s' := by
  constructor
  · intro h
    rcases SettingKey.known_or_unknown name with ⟨key, rfl⟩ | hunknown
    · rw [set_name] at h
      exact ⟨key, rfl, change_eq_ok_iff.1 h⟩
    · rw [set_of_unknown hunknown] at h
      cases h
  · rintro ⟨key, rfl, h⟩
    rw [set_name]
    exact change_eq_ok_iff.2 h

/-- A setting that was changed to a value is shown as a value equal to it. -/
theorem Changed.get (h : s.Changed key value s') :
    ∃ datum, s'.get key.name = .ok datum ∧ datum.equals value = true :=
  ⟨s'.value key, get_name s' key, h.equals⟩

/-- Under every other name the same is shown as before. -/
theorem Changed.get_other (h : s.Changed key value s') (hname : name ≠ key.name) :
    s'.get name = s.get name := by
  rcases SettingKey.known_or_unknown name with ⟨other, rfl⟩ | hunknown
  · rw [get_name, get_name, h.others (fun hother => hname (congrArg SettingKey.name hother))]
  · rw [get_of_unknown hunknown, get_of_unknown hunknown]

/-! ## Options of a query -/

theorem durability_differs_iff :
    s.value .durability ≠ ({} : Settings).value .durability ↔ s.durability ≠ .hard := by
  cases h : s.durability <;> simp [value, h, Durability.name]

theorem profile_differs_iff :
    s.value .profile ≠ ({} : Settings).value .profile ↔ s.profile = true := by
  simp [value]

/-- Numbers of rows that can be asked for are shown exactly. -/
theorem Valid.maxBatchRows_differs_iff (hs : s.Valid) :
    s.value .maxBatchRows ≠ ({} : Settings).value .maxBatchRows ↔ s.maxBatchRows ≠ 0 := by
  have hexact : (Datum.ofNat s.maxBatchRows).asWord? = some s.maxBatchRows :=
    Datum.asWord?_ofNat (hs.maxBatchRows.trans (by decide))
  have hzero : (Datum.ofNat 0).asWord? = some 0 := Datum.asWord?_ofNat (by decide)
  -- Numbers in general are rounded; these are read back as they were.
  refine not_congr ⟨fun h => ?_, fun h => ?_⟩
  · have hword := congrArg Datum.asWord? h
    rw [value, value, hexact, hzero] at hword
    exact Option.some.inj hword
  · rw [value, value, h]

/-- The options of a query are the default database and the settings that are not as
they are at first. -/
theorem Valid.mem_startOptions_iff (hs : s.Valid) {name : String} {option : Term} :
    (name, option) ∈ s.startOptions ↔
      (name = "db" ∧ option = .ofArgs .db [.literal (.string s.defaultDatabase)]) ∨
      ∃ key ∈ [SettingKey.durability, .profile, .maxBatchRows], name = key.name ∧
        s.value key ≠ ({} : Settings).value key ∧ option = .literal (s.value key) := by
  simp only [List.mem_cons, List.not_mem_nil, or_false, exists_eq_or_imp, exists_eq_left,
    durability_differs_iff, profile_differs_iff, hs.maxBatchRows_differs_iff]
  unfold startOptions
  by_cases hdurability : s.durability = .hard <;> by_cases hrows : s.maxBatchRows = 0 <;>
    cases hprofile : s.profile <;>
      simp [hdurability, hrows, or_assoc, or_comm]

end Settings

/-! ## Calls -/

/-- A call that changes settings: of a configuration, or through a session. -/
inductive SettingsCall where
  | set (name : String) (value : Datum)
  | reset (name : String)
  | changeSetting (name : String) (value : Datum)
  | useDatabase (name : String)

namespace SettingsCall

variable {σ : Type} {s : Session σ} {call : SettingsCall}

/-- The settings that a call makes of settings, unless it is refused. -/
def result (call : SettingsCall) (settings : Settings) : Except BuildFault Settings :=
  match call with
  | .set name value | .changeSetting name value => settings.set name value
  | .reset name => settings.reset name
  | .useDatabase name => settings.set SettingKey.defaultDatabase.name (.string name)

/-- A call, and the session after it. -/
def perform (call : SettingsCall) (s : Session σ) : Except Fault Unit × Session σ :=
  match call with
  | .set .. | .reset _ =>
    match call.result s.settings with
    | .ok settings => (.ok (), { s with settings })
    | .error cause => (.error (.build cause), s)
  | .changeSetting name value => s.changeSetting name value
  | .useDatabase name => s.useDatabase name

/-- The session after some calls. -/
def after (s : Session σ) (calls : List SettingsCall) : Session σ :=
  calls.foldl (fun s call => (call.perform s).2) s

/-- The call sets what has a name to a value. -/
inductive Sets : SettingsCall → String → Datum → Prop where
  | set (name : String) (value : Datum) : Sets (.set name value) name value
  | changeSetting (name : String) (value : Datum) :
      Sets (.changeSetting name value) name value
  | useDatabase (name : String) :
      Sets (.useDatabase name) "default_database" (.string name)

theorem perform_of_ok {settings : Settings} (h : call.result s.settings = .ok settings) :
    (call.perform s).1 = .ok () ∧ (call.perform s).2.settings = settings := by
  cases call with
  | set name value | reset name =>
      rw [perform, h]
      exact ⟨rfl, rfl⟩
  | changeSetting name value =>
      have hset : s.settings.set name value = .ok settings := h
      rw [perform, Session.changeSetting, hset]
      exact ⟨rfl, rfl⟩
  | useDatabase name =>
      have hset : s.settings.set SettingKey.defaultDatabase.name (.string name) =
        .ok settings := h
      rw [perform, Session.useDatabase, Session.changeSetting, hset]
      exact ⟨rfl, rfl⟩

theorem perform_of_error {cause : BuildFault} (h : call.result s.settings = .error cause) :
    call.perform s = (.error (.build cause), s) := by
  cases call with
  | set name value | reset name => simp only [perform, h]
  | changeSetting name value =>
      have hset : s.settings.set name value = .error cause := h
      rw [perform, Session.changeSetting, hset]
  | useDatabase name =>
      have hset : s.settings.set SettingKey.defaultDatabase.name (.string name) =
        .error cause := h
      rw [perform, Session.useDatabase, Session.changeSetting, hset]

/-- A call either is refused and leaves the session as it is, or changes one
setting. -/
theorem perform_cases (call : SettingsCall) (s : Session σ) :
    (∃ cause, call.perform s = (.error (.build cause), s)) ∨
    ∃ key value, (call.perform s).1 = .ok () ∧
      s.settings.Changed key value (call.perform s).2.settings := by
  cases hresult : call.result s.settings with
  | error cause => exact .inl ⟨cause, perform_of_error hresult⟩
  | ok settings =>
      obtain ⟨hok, hsettings⟩ := perform_of_ok hresult
      rw [hok, hsettings]
      suffices h : ∃ key value, s.settings.Changed key value settings by
        obtain ⟨key, value, hchanged⟩ := h
        exact .inr ⟨key, value, rfl, hchanged⟩
      cases call with
      | set name value | changeSetting name value | useDatabase name =>
          obtain ⟨key, _, hchanged⟩ := Settings.set_eq_ok_iff.1 hresult
          exact ⟨key, _, hchanged⟩
      | reset name =>
          obtain ⟨key, _, rfl⟩ := Settings.reset_eq_ok_iff.1 hresult
          exact ⟨key, _, s.settings.changed_restored key⟩

theorem valid_after {s : Session σ} (hs : s.settings.Valid) (calls : List SettingsCall) :
    (after s calls).settings.Valid := by
  induction calls generalizing s with
  | nil => exact hs
  | cons call later ih =>
      refine ih (s := (call.perform s).2) ?_
      rcases call.perform_cases s with ⟨cause, hrefused⟩ | ⟨key, value, _, hchanged⟩
      · rw [hrefused]
        exact hs
      · exact hchanged.valid hs

theorem Sets.result_eq {name : String} {value : Datum} (h : call.Sets name value)
    (settings : Settings) : call.result settings = settings.set name value := by
  cases h <;> rfl

/-- A call that sets a value, if it is not refused, changes the setting of the
name. -/
theorem Sets.changed {name : String} {value : Datum} (h : call.Sets name value)
    (hok : (call.perform s).1 = .ok ()) :
    ∃ key : SettingKey, key.name = name ∧
      s.settings.Changed key value (call.perform s).2.settings := by
  cases hset : s.settings.set name value with
  | error cause =>
      rw [perform_of_error ((h.result_eq _).trans hset)] at hok
      cases hok
  | ok settings =>
      rw [(perform_of_ok ((h.result_eq _).trans hset)).2]
      exact Settings.set_eq_ok_iff.1 hset

/-- A call that sets a value is refused unless the setting can have it. -/
theorem Sets.ok_iff {name : String} {value : Datum} (h : call.Sets name value) :
    (call.perform s).1 = .ok () ↔ Settings.Settable name value := by
  rw [Settings.settable_iff s.settings]
  constructor
  · intro hok
    obtain ⟨key, hkey, hchanged⟩ := h.changed hok
    exact ⟨key, hkey, _, hchanged⟩
  · rintro ⟨key, hkey, settings, hchanged⟩
    have hset := Settings.set_eq_ok_iff.2 ⟨key, hkey, hchanged⟩
    exact (perform_of_ok ((h.result_eq _).trans hset)).1

theorem perform_reset (key : SettingKey) (s : Session σ) :
    (reset key.name).perform s = (.ok (), { s with settings := s.settings.restored key }) := by
  rw [perform, result, Settings.reset_name]

end SettingsCall

/-- Whatever calls have changed settings that were the default ones at first, the
settings are valid.  A call that is refused leaves the session as it is.  One that
sets a value is refused unless the setting can have it, and otherwise makes an equal
value be shown and changes nothing else.  Going back restores what there was at first,
under every name that there is.  The options of a query are the default database and
every setting that differs from what it was at first, as it is shown. -/
theorem settings_after_calls {σ : Type} (first : Session σ) (calls : List SettingsCall) :
    let s := SettingsCall.after { first with settings := {} } calls
    (IsPlainName s.settings.defaultDatabase ∧ s.settings.maxBatchRows ≤ 1000000) ∧
    (∀ (call : SettingsCall) (fault : Fault), (call.perform s).1 = .error fault →
      (call.perform s).2 = s) ∧
    (∀ (call : SettingsCall) (name : String) (value : Datum), call.Sets name value →
      ((call.perform s).1 = .ok () ↔ Settings.Settable name value) ∧
      ((call.perform s).1 = .ok () →
        (∃ datum, (call.perform s).2.settings.get name = .ok datum ∧
          datum.equals value = true) ∧
        ∀ other, other ≠ name →
          (call.perform s).2.settings.get other = s.settings.get other)) ∧
    (∀ key : SettingKey,
      (SettingsCall.reset key.name).perform s =
        (.ok (), { s with settings := s.settings.restored key }) ∧
      (s.settings.restored key).get key.name = ({} : Settings).get key.name ∧
      ∀ other, other ≠ key.name →
        (s.settings.restored key).get other = s.settings.get other) ∧
    (∀ name, (∀ key : SettingKey, key.name ≠ name) →
      ((SettingsCall.reset name).perform s).1 = .error (.build (.unknownSetting name))) ∧
    Fields.Sorted s.settings.startOptions ∧
    ∀ name option, (name, option) ∈ s.settings.startOptions ↔
      (name = "db" ∧
        option = .ofArgs .db [.literal (.string s.settings.defaultDatabase)]) ∨
      (name ∈ ["durability", "profile", "max_batch_rows"] ∧
        ∃ datum, s.settings.get name = .ok datum ∧
          ({} : Settings).get name ≠ .ok datum ∧ option = .literal datum) := by
  intro s
  have hvalid : s.settings.Valid := SettingsCall.valid_after Settings.valid_default calls
  refine ⟨⟨hvalid.defaultDatabase, hvalid.maxBatchRows⟩, fun call fault hfault => ?_,
    fun call name value hsets => ⟨hsets.ok_iff, fun hok => ?_⟩, fun key => ⟨?_, ?_, ?_⟩, fun name hname => ?_,
    s.settings.sorted_startOptions, fun name option => ?_⟩
  · rcases call.perform_cases s with ⟨cause, hrefused⟩ | ⟨_, _, hdone, _⟩
    · rw [hrefused]
    · cases hdone.symm.trans hfault
  · obtain ⟨key, rfl, hchanged⟩ := hsets.changed hok
    exact ⟨hchanged.get, fun other hother => hchanged.get_other hother⟩
  · exact SettingsCall.perform_reset key s
  · rw [Settings.get_name, Settings.get_name, Settings.value_restored]
  · exact fun other hother => (s.settings.changed_restored key).get_other hother
  · have hrefused : (SettingsCall.reset name).result s.settings =
        .error (.unknownSetting name) := Settings.reset_of_unknown hname
    rw [SettingsCall.perform_of_error hrefused]
  · rw [hvalid.mem_startOptions_iff]
    refine or_congr_right ⟨?_, ?_⟩
    · rintro ⟨key, hkey, rfl, hdiffers, rfl⟩
      refine ⟨List.mem_map_of_mem hkey, s.settings.value key, Settings.get_name _ key, ?_, rfl⟩
      rw [Settings.get_name]
      exact fun h => hdiffers (Except.ok.inj h).symm
    · rintro ⟨hname, datum, hget, hdiffers, rfl⟩
      obtain ⟨key, hkey, rfl⟩ : ∃ key ∈ [SettingKey.durability, .profile, .maxBatchRows],
          key.name = name := List.mem_map.1 hname
      rw [Settings.get_name] at hget hdiffers
      cases hget
      exact ⟨key, hkey, rfl, fun h => hdiffers (congrArg Except.ok h.symm), rfl⟩

end DocumentQuery
