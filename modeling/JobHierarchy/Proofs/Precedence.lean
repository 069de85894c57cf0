import JobHierarchy.Proofs.Addresses
import JobHierarchy.Proofs.CommandLines
import Mathlib.Data.List.Nodup
/-!
# Which setting counts

Settings come in layers: what a command line says, the variables of the environment, a settings file, and the
defaults. Of each setting the uppermost layer that has it counts (`CommandLine.settings_precedence`), although the
layers are laid on top of each other in several places and some variables come in twice, as such and in the place of
an option that is absent (`Grammar.read_completes`).

A layer is what one source says by itself, read without the others: `Invocation.lineFlags` for a line, and `FileLayer`
for a file.
-/

namespace JobHierarchy

/-! ## Fields of records -/

namespace Json.Decode

section
variable {σ γ : Type} {names : List String} {read : σ → Nat → Json → Decoded σ}

/-- The field at a place is read by `decode` into the part `get` of a record, which no other field touches. -/
structure Field (names : List String) (read : σ → Nat → Json → Decoded σ) (place : Nat) (get : σ → γ)
    (decode : Json → Decoded γ) : Prop where
  own : ∀ s v s', read s place v = .ok s' → decode v = .ok (get s')
  other : ∀ s i v s', i < names.length → i ≠ place → read s i v = .ok s' → get s' = get s

variable {place : Nat} {get : σ → γ} {decode : Json → Decoded γ}

/-- A field that has been read stays as it is, since none is taken twice. -/
theorem Field.get_of_seen (hf : Field names read place get decode) : ∀ {members : List (String × Json)} {seen : List Nat}
    {s s' : σ}, place ∈ seen → readMembers names read members seen s = .ok s' → get s' = get s
  | [], _, _, _, _, h => by
    cases h
    rfl
  | (name, value) :: rest, seen, s, s', hseen, h => by
    rw [readMembers] at h
    split at h
    · exact hf.get_of_seen hseen h
    · next i hi =>
      have hlt : i < names.length := (List.idxOf?_eq_some_iff.1 hi).1
      split at h
      · cases h
      · next hnew =>
        obtain ⟨next, hnext, h⟩ := Except.bind_eq_ok h
        have hne : i ≠ place := by
          rintro rfl
          simp [hseen] at hnew
        rw [hf.get_of_seen (List.mem_cons_of_mem _ hseen) h, hf.other _ _ _ _ hlt hne hnext]

/-- Names that differ have their places to themselves. -/
theorem idxOf?_eq_some_iff_eq (hnodup : names.Nodup) {name : String} (hname : names[place]? = some name) (other : String) :
    names.idxOf? other = some place ↔ other = name := by
  obtain ⟨hlt, hget⟩ := List.getElem?_eq_some_iff.1 hname
  rw [List.idxOf?_eq_some_iff]
  constructor
  · rintro ⟨_, hother, -⟩
    exact hother.symm.trans hget
  · rintro rfl
    refine ⟨hlt, hget, fun j hj hsame => ?_⟩
    have := (List.Nodup.getElem_inj_iff hnodup).1 (hsame.trans hget.symm)
    omega

/-- **A field of an object that can be read** is the member of its name, or as it was if there is none. -/
theorem Field.get_readMembers (hf : Field names read place get decode) (hnodup : names.Nodup) {name : String}
    (hname : names[place]? = some name) : ∀ {members : List (String × Json)}
    {seen : List Nat} {s s' : σ}, place ∉ seen → readMembers names read members seen s = .ok s' →
    ∃ x, (members.lookup name).mapM decode = .ok x ∧ get s' = x.getD (get s)
  | [], _, _, _, _, h => by
    cases h
    exact ⟨none, rfl, rfl⟩
  | (other, value) :: rest, seen, s, s', hseen, h => by
    rw [readMembers] at h
    by_cases hother : other = name
    · subst hother
      rw [(idxOf?_eq_some_iff_eq hnodup hname other).2 rfl] at h
      simp only [List.contains_eq_mem, hseen, decide_false, Bool.false_eq_true, if_false] at h
      obtain ⟨next, hnext, h⟩ := Except.bind_eq_ok h
      refine ⟨some (get next), ?_, hf.get_of_seen List.mem_cons_self h⟩
      rw [List.lookup_cons_self, Option.mapM_some, hf.own _ _ _ hnext]
      rfl
    · rw [lookup_cons_of_ne (Ne.symm hother)]
      split at h
      · exact hf.get_readMembers hnodup hname hseen h
      · next i hi =>
        have hlt : i < names.length := (List.idxOf?_eq_some_iff.1 hi).1
        have hne : i ≠ place := by
          rintro rfl
          exact hother ((idxOf?_eq_some_iff_eq hnodup hname other).1 hi)
        split at h
        · cases h
        · obtain ⟨next, hnext, h⟩ := Except.bind_eq_ok h
          have hseen' : place ∉ i :: seen := fun hmem => (List.mem_cons.1 hmem).elim (fun e => hne e.symm) hseen
          obtain ⟨x, hx, hget⟩ := hf.get_readMembers hnodup hname hseen' h
          exact ⟨x, hx, by rw [hget, hf.other _ _ _ _ hlt hne hnext]⟩

end

end Json.Decode

/-! ## Files -/

open Json.Decode

/-- What a settings file says: the settings that stand in it. -/
structure FileLayer where
  baseUrl : Option String
  credentials : Option Credentials
  pollInterval : Option Nat
  waitTimeout : Option Nat
  requestTimeout : Option Nat
  deriving DecidableEq, Repr

namespace FileLayer

def empty : FileLayer := ⟨none, none, none, none, none⟩

/-- The members of a table that name settings. -/
def ofMembers (members : List (String × Json)) : Decoded FileLayer := do
  return {
    baseUrl := ← (members.lookup "base_url").mapM string
    credentials := (← (members.lookup "credentials").mapM (optional (Credentials.ofJson false))).join
    pollInterval := ← (members.lookup "poll_interval_ms").mapM natural
    waitTimeout := ← (members.lookup "wait_timeout_ms").mapM natural
    requestTimeout := ← (members.lookup "request_timeout_ms").mapM natural }

/-- The text of a settings file, which is a table. -/
def ofText (text : String) : Decoded FileLayer :=
  match Toml.parse? text with
  | some (.object members) => ofMembers members
  | _ => .error none

/-- The file at a path; no file says nothing. -/
def ofPath (files : FileView) : Option String → Except Error FileLayer
  | none => .ok empty
  | some path =>
    match files.read path with
    | .ok text => (ofText text).mapError .toml
    | .error fault => .error (.io fault)

/-- The layer on top of the defaults. -/
def settings (file : FileLayer) : Settings where
  baseUrl := file.baseUrl.getD Settings.default.baseUrl
  credentials := file.credentials
  pollInterval := file.pollInterval.getD Settings.default.pollInterval
  waitTimeout := file.waitTimeout.getD Settings.default.waitTimeout
  requestTimeout := file.requestTimeout.getD Settings.default.requestTimeout

end FileLayer

namespace Settings

/-- The fields of a table of settings. -/
def fieldNames : List String := ["base_url", "credentials", "poll_interval_ms", "wait_timeout_ms", "request_timeout_ms"]

/-- Reads the field at a place into settings. -/
def readField (s : Settings) (place : Nat) (v : Json) : Decoded Settings :=
  match place with
  | 0 => do return { s with baseUrl := ← string v }
  | 1 => do return { s with credentials := ← optional (Credentials.ofJson false) v }
  | 2 => do return { s with pollInterval := ← natural v }
  | 3 => do return { s with waitTimeout := ← natural v }
  | _ => do return { s with requestTimeout := ← natural v }

theorem ofJson_eq_fields (v : Json) :
    Settings.ofJson false v = fields fieldNames false Settings.default readField v >>= fun r => pure r.1 := rfl

/-- What reading a field can come to. -/
inductive ReadsField (s : Settings) (v : Json) : Nat → Settings → Prop where
  | baseUrl {x : String} (h : string v = .ok x) : ReadsField s v 0 { s with baseUrl := x }
  | credentials {x : Option Credentials} (h : optional (Credentials.ofJson false) v = .ok x) :
    ReadsField s v 1 { s with credentials := x }
  | pollInterval {x : Nat} (h : natural v = .ok x) : ReadsField s v 2 { s with pollInterval := x }
  | waitTimeout {x : Nat} (h : natural v = .ok x) : ReadsField s v 3 { s with waitTimeout := x }
  | requestTimeout {x : Nat} (h : natural v = .ok x) : ReadsField s v 4 { s with requestTimeout := x }

theorem readsField {s s' : Settings} {v : Json} : ∀ {place : Nat}, place < fieldNames.length →
    readField s place v = .ok s' → ReadsField s v place s'
  | 0, _, h => by
    obtain ⟨x, hx, h⟩ := Except.bind_eq_ok h
    cases h
    exact .baseUrl hx
  | 1, _, h => by
    obtain ⟨x, hx, h⟩ := Except.bind_eq_ok h
    cases h
    exact .credentials hx
  | 2, _, h => by
    obtain ⟨x, hx, h⟩ := Except.bind_eq_ok h
    cases h
    exact .pollInterval hx
  | 3, _, h => by
    obtain ⟨x, hx, h⟩ := Except.bind_eq_ok h
    cases h
    exact .waitTimeout hx
  | 4, _, h => by
    obtain ⟨x, hx, h⟩ := Except.bind_eq_ok h
    cases h
    exact .requestTimeout hx
  | _ + 5, hlt, _ => absurd hlt (by simp [fieldNames])

theorem field_baseUrl : Field fieldNames readField 0 Settings.baseUrl string where
  own s v s' h := by
    cases readsField (by decide) h with
    | baseUrl hx => exact hx
  other s i v s' hlt hi h := by
    cases readsField hlt h with
    | baseUrl => exact absurd rfl hi
    | _ => rfl

theorem field_credentials : Field fieldNames readField 1 Settings.credentials (optional (Credentials.ofJson false)) where
  own s v s' h := by
    cases readsField (by decide) h with
    | credentials hx => exact hx
  other s i v s' hlt hi h := by
    cases readsField hlt h with
    | credentials => exact absurd rfl hi
    | _ => rfl

theorem field_pollInterval : Field fieldNames readField 2 Settings.pollInterval natural where
  own s v s' h := by
    cases readsField (by decide) h with
    | pollInterval hx => exact hx
  other s i v s' hlt hi h := by
    cases readsField hlt h with
    | pollInterval => exact absurd rfl hi
    | _ => rfl

theorem field_waitTimeout : Field fieldNames readField 3 Settings.waitTimeout natural where
  own s v s' h := by
    cases readsField (by decide) h with
    | waitTimeout hx => exact hx
  other s i v s' hlt hi h := by
    cases readsField hlt h with
    | waitTimeout => exact absurd rfl hi
    | _ => rfl

theorem field_requestTimeout : Field fieldNames readField 4 Settings.requestTimeout natural where
  own s v s' h := by
    cases readsField (by decide) h with
    | requestTimeout hx => exact hx
  other s i v s' hlt hi h := by
    cases readsField hlt h with
    | requestTimeout => exact absurd rfl hi
    | _ => rfl

/-- **A table of settings** is what its members say, on top of the defaults. -/
theorem ofJson_object {members : List (String × Json)} {s : Settings}
    (h : Settings.ofJson false (.object members) = .ok s) :
    ∃ file, FileLayer.ofMembers members = .ok file ∧ s = file.settings := by
  rw [ofJson_eq_fields] at h
  obtain ⟨⟨s', form⟩, hfields, hs⟩ := Except.bind_eq_ok h
  cases hs
  obtain ⟨_, hmembers, hs⟩ := Except.map_eq_ok hfields
  cases hs
  have hnodup : fieldNames.Nodup := by decide
  obtain ⟨url, hurl, hurl'⟩ := field_baseUrl.get_readMembers hnodup rfl List.not_mem_nil hmembers
  obtain ⟨pair, hpair, hpair'⟩ := field_credentials.get_readMembers hnodup rfl List.not_mem_nil hmembers
  obtain ⟨poll, hpoll, hpoll'⟩ := field_pollInterval.get_readMembers hnodup rfl List.not_mem_nil hmembers
  obtain ⟨wait, hwait, hwait'⟩ := field_waitTimeout.get_readMembers hnodup rfl List.not_mem_nil hmembers
  obtain ⟨limit, hlimit, hlimit'⟩ := field_requestTimeout.get_readMembers hnodup rfl List.not_mem_nil hmembers
  refine ⟨⟨url, pair.join, poll, wait, limit⟩, ?_, ?_⟩
  · simp only [FileLayer.ofMembers, hurl, hpair, hpoll, hwait, hlimit]
    rfl
  · have hjoin : s'.credentials = pair.join := by
      rw [hpair']
      cases pair <;> rfl
    cases s'
    simp only at hurl' hjoin hpoll' hwait' hlimit'
    rw [hurl', hjoin, hpoll', hwait', hlimit']
    rfl

end Settings

theorem Toml.parse?_eq_some {text : String} {v : Json} (h : Toml.parse? text = some v) : ∃ members, v = .object members := by
  unfold Toml.parse? at h
  obtain ⟨_, -, h⟩ := Option.bind_eq_some_iff.1 h
  obtain ⟨d, -, h⟩ := Option.bind_eq_some_iff.1 h
  exact ⟨_, (Option.some.inj h).symm⟩

/-- **A settings file** is what it says, on top of the defaults. -/
theorem Settings.ofFile_eq_ok {files : FileView} {path : String} {s : Settings} (h : Settings.ofFile files path = .ok s) :
    ∃ file, FileLayer.ofPath files (some path) = .ok file ∧ s = file.settings := by
  unfold Settings.ofFile at h
  unfold FileLayer.ofPath
  cases hread : files.read path with
  | error fault =>
    rw [hread] at h
    cases h
  | ok text =>
    simp only [hread] at h ⊢
    have htoml := Except.mapError_eq_ok h
    unfold Settings.ofToml at htoml
    unfold FileLayer.ofText
    cases hparse : Toml.parse? text with
    | none =>
      rw [hparse] at htoml
      cases htoml
    | some v =>
      obtain ⟨members, rfl⟩ := Toml.parse?_eq_some hparse
      rw [hparse] at htoml
      obtain ⟨file, hfile, hs⟩ := Settings.ofJson_object htoml
      exact ⟨file, by simp only [hfile]; rfl, hs⟩

/-! ## The environment -/

/-- User and token, where both are there. -/
def Credentials.pair? (user token : Option String) : Option Credentials := do
  return ⟨← user, ← token⟩

/-- The number in a variable, which may have white space around it. -/
def number? (value : Option String) : Except Text.NumberFault (Option Nat) :=
  value.mapM fun text => Text.natural64 (Text.trim text)

namespace Settings

variable {env : Environment}

theorem overrideMillis_eq_ok {name : String} {value : Option String} {below n : Nat}
    (h : overrideMillis name value below = .ok n) : ∃ x, number? value = .ok x ∧ n = x.getD below := by
  cases value with
  | none =>
    cases h
    exact ⟨none, rfl, rfl⟩
  | some text =>
    unfold overrideMillis readMillis at h
    dsimp only at h
    split at h
    · next m hm =>
      cases h
      refine ⟨some n, ?_, rfl⟩
      rw [number?, Option.mapM_some, hm]
      rfl
    · cases h

theorem overrideCredentials_eq_ok {below credentials : Option Credentials}
    (h : overrideCredentials env below = .ok credentials) :
    credentials = (Credentials.pair? env.user env.token).or below := by
  unfold overrideCredentials at h
  split at h
  · next user token huser htoken =>
    cases h
    rw [huser, htoken]
    rfl
  · next huser htoken =>
    cases h
    rw [huser, htoken]
    rfl
  · cases h

/-- The environment on top of settings. -/
theorem withEnvironment_eq_ok {s s' : Settings} (h : s.withEnvironment env = .ok s') :
    ∃ poll timeout, number? env.pollInterval = .ok poll ∧ number? env.timeout = .ok timeout ∧ s' = { s with
      baseUrl := env.url.getD s.baseUrl
      credentials := (Credentials.pair? env.user env.token).or s.credentials
      pollInterval := poll.getD s.pollInterval
      waitTimeout := timeout.getD s.waitTimeout } := by
  obtain ⟨credentials, hcredentials, h⟩ := Except.bind_eq_ok h
  obtain ⟨interval, hinterval, h⟩ := Except.bind_eq_ok h
  obtain ⟨wait, hwait, h⟩ := Except.bind_eq_ok h
  obtain ⟨_, -, h⟩ := Except.bind_eq_ok h
  obtain ⟨poll, hpoll, rfl⟩ := overrideMillis_eq_ok hinterval
  obtain ⟨timeout, htimeout, rfl⟩ := overrideMillis_eq_ok hwait
  obtain rfl := overrideCredentials_eq_ok hcredentials
  exact ⟨poll, timeout, hpoll, htimeout, (Except.ok.inj h).symm⟩

/-! ## Soundness -/

/-- The URL says how to talk to a server. -/
def IsHttp (url : String) : Prop := "http://".toList <+: url.toList ∨ "https://".toList <+: url.toList

instance (url : String) : Decidable (IsHttp url) := inferInstanceAs (Decidable (_ ∨ _))

theorem isHttpUrl_iff {url : String} : isHttpUrl url = true ↔ IsHttp url := by
  rw [isHttpUrl, Bool.or_eq_true, Text.after?_isSome_iff, Text.after?_isSome_iff, IsHttp]

theorem isHttp_withSlash {url : String} (h : IsHttp url) : IsHttp (withSlash url) := by
  unfold withSlash
  split
  · exact h
  · unfold IsHttp at *
    rw [String.toList_append]
    exact h.imp (·.trans (List.prefix_append _ _)) (·.trans (List.prefix_append _ _))

/-- What `validate` checks. -/
theorem validate_eq_ok {s : Settings} (h : s.validate = .ok ()) : IsHttp s.baseUrl ∧ 0 < s.pollInterval := by
  unfold validate at h
  split at h
  · cases h
  · next hurl =>
    split at h
    · cases h
    · next hpoll =>
      exact ⟨isHttpUrl_iff.1 (by simpa using hurl), Nat.pos_of_ne_zero hpoll⟩

end Settings

/-! ## Lines -/

namespace CommandLine

/-- The options that variables stand in for. -/
def flagFallbacks : List (String × String) :=
  [("url", "JOBTREE_URL"), ("user", "JOBTREE_USER"), ("token", "JOBTREE_TOKEN")]

theorem grammar_takes : Invocation.grammar.Takes flagFallbacks := by
  have hbelow : ∀ g ∈ Invocation.grammar.commands, g.TakesHere flagFallbacks ∧
      ∀ g' ∈ g.commands, g'.TakesHere flagFallbacks ∧ g'.commands.isEmpty = true := by
    decide +kernel
  refine .intro (by decide +kernel) fun g hg => .intro (hbelow g hg).1 fun g' hg' => ?_
  obtain ⟨hhere, hempty⟩ := (hbelow g hg).2 g' hg'
  refine .intro hhere fun g'' hg'' => ?_
  rw [List.isEmpty_iff.1 hempty] at hg''
  cases hg''

theorem standIn_flagFallbacks (env : Environment) :
    standIn env.get? flagFallbacks "url" = env.url ∧ standIn env.get? flagFallbacks "user" = env.user ∧
      standIn env.get? flagFallbacks "token" = env.token := by
  obtain ⟨url, user, token, _, _⟩ := env
  refine ⟨?_, ?_, ?_⟩
  · cases url <;> rfl
  · cases user <;> rfl
  · cases token <;> rfl

/-- The flags that a line says by itself. -/
def Invocation.lineFlags (words : List String) : Except Stop ConnectionFlags := do
  ConnectionFlags.ofFound ⟨[], ← Invocation.grammar.lineOnly words⟩

/-- The flags of a line, with the variables where the line has none. -/
def ConnectionFlags.orVariables (line : ConnectionFlags) (env : Environment) : ConnectionFlags :=
  { line with url := line.url.or env.url, user := line.user.or env.user, token := line.token.or env.token }

theorem ConnectionFlags.ofFound_completes {env : Environment} {said : Findings} {found : Found} {flags : ConnectionFlags}
    (hsaid : Completes env.get? flagFallbacks said found.findings) (h : ConnectionFlags.ofFound found = .ok flags) :
    ∃ line, ConnectionFlags.ofFound ⟨[], said⟩ = .ok line ∧ flags = line.orVariables env := by
  obtain ⟨heqUrl, heqUser, heqToken⟩ := standIn_flagFallbacks env
  obtain ⟨url, hurl, hurl'⟩ := hsaid.value?_or (p := urlFlag) rfl (by decide)
  obtain ⟨user, huser, huser'⟩ := hsaid.value?_or (p := userFlag) rfl (by decide)
  obtain ⟨token, htoken, htoken'⟩ := hsaid.value?_or (p := tokenFlag) rfl (by decide)
  obtain ⟨_, hfound, h⟩ := Except.bind_eq_ok h
  cases hfound.symm.trans hurl'
  obtain ⟨_, hfound, h⟩ := Except.bind_eq_ok h
  cases hfound.symm.trans huser'
  obtain ⟨_, hfound, h⟩ := Except.bind_eq_ok h
  cases hfound.symm.trans htoken'
  obtain ⟨config, hconfig, h⟩ := Except.bind_eq_ok h
  obtain ⟨templates, htemplates, h⟩ := Except.bind_eq_ok h
  obtain ⟨poll, hpoll, h⟩ := Except.bind_eq_ok h
  cases h
  rw [hsaid.value?_eq rfl] at hconfig htemplates hpoll
  refine ⟨⟨url, user, token, config, templates, poll⟩, ?_, ?_⟩
  · unfold ConnectionFlags.ofFound
    rw [hurl, huser, htoken, hconfig, htemplates, hpoll]
    rfl
  · unfold orVariables
    rw [← heqUrl, ← heqUser, ← heqToken]
    rfl

theorem Invocation.ofFound_flags {found : Found} {i : Invocation} (h : ofFound found = .ok i) :
    ConnectionFlags.ofFound found = .ok i.flags := by
  obtain ⟨command, -, h⟩ := Except.bind_eq_ok h
  have hrest : ∀ task : Task, (do
      return {
        flags := ← ConnectionFlags.ofFound found
        format := (← found.value? formatFlag).getD .table
        verbose := found.isOn verboseSwitch
        task } : Except Stop Invocation) = .ok i → ConnectionFlags.ofFound found = .ok i.flags := by
    intro task h
    obtain ⟨flags, hflags, h⟩ := Except.bind_eq_ok h
    obtain ⟨format, -, h⟩ := Except.bind_eq_ok h
    cases h
    exact hflags
  cases command with
  | some c => exact hrest (.command c) h
  | none => exact hrest _ h

/-- **The flags of an invocation** are those of the line, with the variables for an address, a user and a token that it
does not give. -/
theorem Invocation.read_flags {env : Environment} {words : List String} {i : Invocation}
    (h : Invocation.read env words = .ok i) :
    ∃ line, lineFlags words = .ok line ∧ i.flags = line.orVariables env := by
  obtain ⟨found, hfound, h⟩ := Except.bind_eq_ok h
  obtain ⟨said, hsaid, hcompletes⟩ := Grammar.read_completes grammar_takes hfound
  obtain ⟨line, hline, hflags⟩ := ConnectionFlags.ofFound_completes hcompletes (ofFound_flags h)
  refine ⟨line, ?_, hflags⟩
  rw [lineFlags, hsaid]
  exact hline

end CommandLine

/-! ## Connections -/

/-- A connection is polled as its settings say, and its client is at their URL, with a slash. -/
theorem Connection.ofSettings_eq_ok {s : Settings} {templates : TemplateSource} {connection : Connection}
    (h : Connection.ofSettings s templates = .ok connection) :
    connection.poller.interval = s.pollInterval ∧ connection.server.baseUrl = withSlash s.baseUrl := by
  obtain ⟨_, -, h⟩ := Except.bind_eq_ok h
  cases h
  exact ⟨rfl, rfl⟩

/-! ## Layers -/

namespace CommandLine

namespace ConnectionFlags

variable {flags : ConnectionFlags} {files : FileView} {env : Environment} {s : Settings}

/-- What lies below the flags is the environment on top of a file. -/
theorem settingsBelow_eq_ok (h : flags.settingsBelow files env = .ok s) :
    ∃ file, FileLayer.ofPath files flags.config = .ok file ∧ file.settings.withEnvironment env = .ok s := by
  unfold settingsBelow at h
  cases hconfig : flags.config with
  | none =>
    rw [hconfig] at h
    exact ⟨.empty, rfl, Except.mapError_eq_ok h⟩
  | some path =>
    rw [hconfig] at h
    obtain ⟨loaded, hloaded, h⟩ := Except.bind_eq_ok (Except.mapError_eq_ok h)
    obtain ⟨file, hfile, rfl⟩ := Settings.ofFile_eq_ok hloaded
    exact ⟨file, hfile, h⟩

theorem settings_eq_ok (h : flags.settings files env = .ok s) :
    ∃ below, flags.settingsBelow files env = .ok below ∧ s = flags.apply below ∧ s.validate = .ok () := by
  obtain ⟨below, hbelow, h⟩ := Except.bind_eq_ok h
  obtain ⟨_, hvalidate, h⟩ := Except.bind_eq_ok h
  cases h
  exact ⟨below, hbelow, rfl, Except.mapError_eq_ok hvalidate⟩

/-- A connection is made for the settings in force. -/
theorem connect_eq_ok {connection : Connection} (h : (flags.connect files env).1 = .ok connection) :
    ∃ s, flags.settings files env = .ok s ∧ connection.poller.interval = s.pollInterval ∧
      connection.server.baseUrl = withSlash s.baseUrl := by
  unfold connect at h
  split at h
  · cases h
  · next s hs =>
    obtain ⟨templates, -, h⟩ := Except.bind_eq_ok h
    exact ⟨s, hs, Connection.ofSettings_eq_ok (Except.mapError_eq_ok h)⟩

/-- A user and a token from the flags count more than a pair below them, and so does a pair from the variables, which
the flags have as well. -/
theorem apply_credentials (line : ConnectionFlags) (env : Environment) {below : Settings} {credentials : Option Credentials}
    (hbelow : below.credentials = (Credentials.pair? env.user env.token).or credentials) :
    ((line.orVariables env).apply below).credentials =
      (Credentials.pair? (line.user.or env.user) (line.token.or env.token)).or credentials := by
  unfold apply orVariables
  simp only [hbelow]
  cases line.user <;> cases line.token <;> cases env.user <;> cases env.token <;> rfl

end ConnectionFlags

/-- Of each setting the value in the uppermost layer that has it: a line, the variables, a file, and the defaults. User
and token are taken by themselves from the upper two layers, and only together from there. -/
structure Precedence (line : ConnectionFlags) (env : Environment) (file : FileLayer) (s : Settings) : Prop where
  baseUrl : s.baseUrl = ((line.url.or env.url).or file.baseUrl).getD "http://127.0.0.1:8080/"
  credentials : s.credentials =
    (Credentials.pair? (line.user.or env.user) (line.token.or env.token)).or file.credentials
  pollInterval : ∃ poll, number? env.pollInterval = .ok poll ∧
    s.pollInterval = ((line.pollInterval.or poll).or file.pollInterval).getD 500
  waitTimeout : ∃ timeout, number? env.timeout = .ok timeout ∧ s.waitTimeout = (timeout.or file.waitTimeout).getD 60000
  requestTimeout : s.requestTimeout = file.requestTimeout.getD 30000

theorem ConnectionFlags.apply_precedence {line : ConnectionFlags} {env : Environment} {file : FileLayer} {below : Settings}
    (h : file.settings.withEnvironment env = .ok below) :
    Precedence line env file ((line.orVariables env).apply below) := by
  obtain ⟨poll, timeout, hpoll, htimeout, rfl⟩ := Settings.withEnvironment_eq_ok h
  refine ⟨?_, line.apply_credentials env rfl, ⟨poll, hpoll, ?_⟩, ⟨timeout, htimeout, ?_⟩, rfl⟩
  · change (line.url.or env.url).getD (env.url.getD (file.baseUrl.getD _)) = _
    cases line.url <;> cases env.url <;> cases file.baseUrl <;> rfl
  · change line.pollInterval.getD (poll.getD (file.pollInterval.getD _)) = _
    rw [Option.getD_or, Option.getD_or]
    rfl
  · change timeout.getD (file.waitTimeout.getD _) = _
    rw [Option.getD_or]
    rfl

/-- **Settings in force** have each value from the uppermost layer that has it, and are sound: a connection by them is
polled at an interval that is not zero, at a URL that says how to talk to its server. -/
theorem settings_precedence {files : FileView} {env : Environment} {words : List String} {i : Invocation} {s : Settings}
    (hread : Invocation.read env words = .ok i) (hs : i.flags.settings files env = .ok s) :
    (∃ line file, Invocation.lineFlags words = .ok line ∧ FileLayer.ofPath files line.config = .ok file ∧
      Precedence line env file s) ∧
    s.validate = .ok () ∧ Settings.IsHttp s.baseUrl ∧
    ∀ connection, (i.flags.connect files env).1 = .ok connection →
      0 < connection.poller.interval ∧ Settings.IsHttp connection.server.baseUrl := by
  obtain ⟨line, hline, hflags⟩ := Invocation.read_flags hread
  obtain ⟨below, hbelow, happly, hvalidate⟩ := ConnectionFlags.settings_eq_ok hs
  obtain ⟨hhttp, hpositive⟩ := Settings.validate_eq_ok hvalidate
  obtain ⟨file, hfile, henvironment⟩ := ConnectionFlags.settingsBelow_eq_ok hbelow
  rw [hflags] at hfile happly
  refine ⟨⟨line, file, hline, hfile, happly ▸ ConnectionFlags.apply_precedence henvironment⟩, hvalidate, hhttp, ?_⟩
  intro connection hconnect
  obtain ⟨s', hs', hinterval, hurl⟩ := ConnectionFlags.connect_eq_ok hconnect
  cases hs.symm.trans hs'
  rw [hinterval, hurl]
  exact ⟨hpositive, Settings.isHttp_withSlash hhttp⟩

/-- A line that gives an address and a token, and a user only together with the environment. -/
def mixedWords : List String :=
  ["job", "--url", "https://ci.example.com", "delete", "nightly", "--config=jobtree.toml", "--token", "fresh"]

def mixedEnvironment : Environment where
  url := some "http://elsewhere:8080/"
  user := some "ann"
  token := some "stale"
  pollInterval := some " 250 "
  timeout := none

/-- The address in the file is none for a server, and does not count. -/
def mixedText : String :=
  "base_url = \"ftp://nowhere\"\nwait_timeout_ms = 90000\n[credentials]\nusername = \"bob\"\napi_token = \"old\"\n"

def mixedFiles : FileView := (FileTree.ofList [("jobtree.toml", mixedText)]).view ""

def mixedLine : ConnectionFlags :=
  ⟨some "https://ci.example.com", none, some "fresh", some "jobtree.toml", none, none⟩

def mixedInvocation : Invocation :=
  ⟨mixedLine.orVariables mixedEnvironment, .table, false, .command (.job (.delete "nightly" .topLevel))⟩

def mixedSettings : Settings := ⟨"https://ci.example.com", some ⟨"ann", "fresh"⟩, 250, 90000, 30000⟩

theorem settings_precedence_mixed :
    Invocation.read mixedEnvironment mixedWords = .ok mixedInvocation ∧
      mixedInvocation.flags.settings mixedFiles mixedEnvironment = .ok mixedSettings ∧
      Invocation.lineFlags mixedWords = .ok mixedLine ∧
      (∃ file, FileLayer.ofPath mixedFiles (some "jobtree.toml") = .ok file ∧ file.credentials = some ⟨"bob", "old"⟩ ∧
        Precedence mixedLine mixedEnvironment file mixedSettings) ∧
      ∃ connection, (mixedInvocation.flags.connect mixedFiles mixedEnvironment).1 = .ok connection ∧
        0 < connection.poller.interval ∧ Settings.IsHttp connection.server.baseUrl := by
  have hread : Invocation.read mixedEnvironment mixedWords = .ok mixedInvocation := by decide +kernel
  have hs : mixedInvocation.flags.settings mixedFiles mixedEnvironment = .ok mixedSettings := by decide +kernel
  have hsaid : Invocation.lineFlags mixedWords = .ok mixedLine := by decide +kernel
  have hbob : (FileLayer.ofPath mixedFiles (some "jobtree.toml")).map FileLayer.credentials =
      .ok (some ⟨"bob", "old"⟩) := by decide +kernel
  have hconnects : (mixedInvocation.flags.connect mixedFiles mixedEnvironment).1.map (·.server.baseUrl) =
      .ok "https://ci.example.com/" := by decide +kernel
  obtain ⟨⟨line, file, hline, hfile, hprecedence⟩, -, -, hconnection⟩ := settings_precedence hread hs
  cases hline.symm.trans hsaid
  obtain ⟨_, hfile', hbob⟩ := Except.map_eq_ok hbob
  cases hfile'.symm.trans hfile
  obtain ⟨connection, hconnect, -⟩ := Except.map_eq_ok hconnects
  exact ⟨hread, hs, hsaid, ⟨file, hfile, hbob, hprecedence⟩, connection, hconnect, hconnection connection hconnect⟩

end CommandLine

end JobHierarchy
