import JobHierarchy.Proofs.Addresses
import JobHierarchy.Proofs.Precedence
/-!
# Settings with others above them

A setting has no effect on the settings in force if a layer above it has the same setting, with one exception. What
lies below the flags of a line is checked by itself before the flags are laid on top of it, so a setting that a flag
covers must still be one that would do: an address for a server, an interval that is not zero, a user only with a token
(`CommandLine.settings_overridden`). Where it would not, there are no settings at all, whatever the line says
(`CommandLine.not_ignored_below`). A variable and a file are checked together, so an address in a file that a variable
covers counts for nothing.

Two runs are compared by what is left of their settings when one of them is blotted out. Files differ in one setting
at most if their tables do (`Settings.ofFile_reworded`).
-/

namespace JobHierarchy

/-! ## Tables that differ in one member -/

namespace Json.Decode

section
variable {σ γ : Type} {names : List String} {read : σ → Nat → Json → Decoded σ} {place : Nat} {name : String}
  {decode : Json → Decoded γ} {blot : σ → σ}

/-- The tables have the same names in the same order, and the same values but for those of `name`, which can be
read in both. -/
def Reworded (name : String) (decode : Json → Decoded γ) : (members members' : List (String × Json)) → Prop :=
  List.Forall₂ fun e e' => e.1 = e'.1 ∧
    (e.2 = e'.2 ∨ e.1 = name ∧ (∃ a, decode e.2 = .ok a) ∧ ∃ a, decode e'.2 = .ok a)

/-- Blotting out a part of a record hides the field at a place and leaves nothing of it in the other fields. -/
structure Blots (read : σ → Nat → Json → Decoded σ) (place : Nat) (decode : Json → Decoded γ) (blot : σ → σ) :
    Prop where
  own : ∀ s v a, decode v = .ok a → (read s place v).map blot = .ok (blot s)
  same : ∀ s t i v, blot s = blot t → (read s i v).map blot = (read t i v).map blot

/-- **Tables that differ in one member** are read alike, but for the part of the record that the member is for. -/
theorem Blots.readMembers_eq (hb : Blots read place decode blot) (hnodup : names.Nodup)
    (hname : names[place]? = some name) : ∀ {members members' : List (String × Json)} {seen : List Nat} {s t : σ},
    Reworded name decode members members' → blot s = blot t →
    (readMembers names read members seen s).map blot = (readMembers names read members' seen t).map blot
  | [], [], seen, s, t, _, hst => congrArg Except.ok hst
  | (n, v) :: rest, (n', v') :: rest', seen, s, t, h, hst => by
    obtain ⟨⟨hn, hv⟩, hrest⟩ := List.forall₂_cons.1 h
    obtain rfl : n = n' := hn
    rw [readMembers, readMembers]
    cases hi : names.idxOf? n with
    | none => exact hb.readMembers_eq hnodup hname hrest hst
    | some i =>
      by_cases hseen : seen.contains i = true
      · simp only [hseen, if_true]
      · simp only [hseen, Bool.false_eq_true, if_false]
        refine Except.map_bind_congr ?_ fun s' t' _ _ hst' => hb.readMembers_eq hnodup hname hrest hst'
        rcases hv with rfl | ⟨rfl, ⟨a, ha⟩, ⟨a', ha'⟩⟩
        · exact hb.same s t i v hst
        · -- the member that differs is the one that is blotted out
          obtain rfl : i = place :=
            Option.some.inj (hi.symm.trans ((idxOf?_eq_some_iff_eq hnodup hname n).2 rfl))
          rw [hb.own s v a ha, hb.own t v' a' ha', hst]

end

end Json.Decode

namespace Settings

open Json.Decode

/-- All settings but the address. -/
def besideUrl (s : Settings) : Settings := { s with baseUrl := "" }

/-- All settings but the interval between polls. -/
def besideInterval (s : Settings) : Settings := { s with pollInterval := 0 }

/-- All settings but user and token. -/
def besidePair (s : Settings) : Settings := { s with credentials := none }

section
variable {s s' : Settings}

theorem exists_of_besideUrl (h : s.besideUrl = s'.besideUrl) : ∃ url, s' = { s with baseUrl := url } := by
  obtain ⟨url, pair, poll, wait, limit⟩ := s
  obtain ⟨url', pair', poll', wait', limit'⟩ := s'
  obtain ⟨-, rfl, rfl, rfl, rfl⟩ := Settings.mk.inj h
  exact ⟨url', rfl⟩

theorem exists_of_besideInterval (h : s.besideInterval = s'.besideInterval) :
    ∃ poll, s' = { s with pollInterval := poll } := by
  obtain ⟨url, pair, poll, wait, limit⟩ := s
  obtain ⟨url', pair', poll', wait', limit'⟩ := s'
  obtain ⟨rfl, rfl, -, rfl, rfl⟩ := Settings.mk.inj h
  exact ⟨poll', rfl⟩

theorem exists_of_besidePair (h : s.besidePair = s'.besidePair) : ∃ pair, s' = { s with credentials := pair } := by
  obtain ⟨url, pair, poll, wait, limit⟩ := s
  obtain ⟨url', pair', poll', wait', limit'⟩ := s'
  obtain ⟨rfl, -, rfl, rfl, rfl⟩ := Settings.mk.inj h
  exact ⟨pair', rfl⟩

end

theorem blots_baseUrl : Blots readField 0 string besideUrl where
  own s v a h := by
    unfold readField
    simp only [h]
    rfl
  same s t i v h := by
    obtain ⟨url, rfl⟩ := exists_of_besideUrl h
    match i with
    | 0 | 1 | 2 | 3 | _ + 4 => exact Except.map_bind_right fun _ => rfl

theorem blots_pollInterval : Blots readField 2 natural besideInterval where
  own s v a h := by
    unfold readField
    simp only [h]
    rfl
  same s t i v h := by
    obtain ⟨poll, rfl⟩ := exists_of_besideInterval h
    match i with
    | 0 | 1 | 2 | 3 | _ + 4 => exact Except.map_bind_right fun _ => rfl

theorem ofToml_object {text : String} {members : List (String × Json)}
    (hparse : Toml.parse? text = some (.object members)) :
    ofToml text = readMembers fieldNames readField members [] .default := by
  rw [ofToml, hparse]
  change ofJson false (.object members) = _
  rw [ofJson_eq_fields, fields]
  cases readMembers fieldNames readField members [] .default <;> rfl

/-- **Files that differ in one setting** at most are read to settings that do. -/
theorem ofFile_reworded {γ : Type} {place : Nat} {name : String} {decode : Json → Decoded γ}
    {blot : Settings → Settings} (hb : Blots readField place decode blot) (hname : fieldNames[place]? = some name)
    {files files' : FileView} {path text text' : String} {members members' : List (String × Json)}
    (htext : files.read path = .ok text) (hparse : Toml.parse? text = some (.object members))
    (htext' : files'.read path = .ok text') (hparse' : Toml.parse? text' = some (.object members'))
    (h : Reworded name decode members members') : (ofFile files path).map blot = (ofFile files' path).map blot := by
  have hread : (readMembers fieldNames readField members [] .default).map blot =
      (readMembers fieldNames readField members' [] .default).map blot :=
    hb.readMembers_eq (by decide) hname h rfl
  have hmap : ∀ x : Decoded Settings, (x.mapError Error.toml).map blot = (x.map blot).mapError .toml := by
    rintro (_ | _) <;> rfl
  simp only [ofFile, htext, htext', ofToml_object hparse, ofToml_object hparse', hmap, hread]

/-! ## Checks -/

variable {s s' : Settings} {env : Environment}

/-- The settings, if they pass the check. -/
def checked (s : Settings) : Except Error Settings := s.validate >>= fun _ => pure s

/-- The check looks at the address before the interval. -/
theorem checked_of_isHttp (h : IsHttp s.baseUrl) : s.checked =
    if s.pollInterval = 0 then .error (.config "poll_interval_ms must be positive") else .ok s := by
  rw [checked, validate, isHttpUrl_iff.2 h]
  by_cases hpoll : s.pollInterval = 0
  · rw [if_pos hpoll, hpoll]
    rfl
  · simp only [hpoll]
    rfl

theorem checked_besideUrl (hurl : IsHttp s.baseUrl) (hurl' : IsHttp s'.baseUrl) (h : s.besideUrl = s'.besideUrl) :
    s.checked.map besideUrl = s'.checked.map besideUrl := by
  obtain ⟨url, rfl⟩ := exists_of_besideUrl h
  rw [checked_of_isHttp hurl, checked_of_isHttp hurl']
  by_cases hzero : s.pollInterval = 0
  · rw [if_pos hzero, if_pos hzero]
  · rw [if_neg hzero, if_neg hzero]
    exact congrArg Except.ok h

theorem checked_besideInterval (hpoll : 0 < s.pollInterval) (hpoll' : 0 < s'.pollInterval)
    (h : s.besideInterval = s'.besideInterval) : s.checked.map besideInterval = s'.checked.map besideInterval := by
  obtain ⟨poll, rfl⟩ := exists_of_besideInterval h
  simp only [checked, validate, Nat.ne_of_gt hpoll, Nat.ne_of_gt hpoll', if_false]
  cases isHttpUrl s.baseUrl with
  | false => rfl
  | true => exact congrArg Except.ok h

/-- User and token are not checked. -/
theorem checked_besidePair (h : s.besidePair = s'.besidePair) :
    s.checked.map besidePair = s'.checked.map besidePair := by
  obtain ⟨pair, rfl⟩ := exists_of_besidePair h
  exact Except.map_bind_right fun _ => congrArg Except.ok h

end Settings

/-! ## Settings that would do -/

/-- The address below the flags is one for a server. -/
def Environment.UrlFits (env : Environment) (s : Settings) : Prop := Settings.IsHttp (env.url.getD s.baseUrl)

/-- The interval below the flags is a number, and not zero. -/
def Environment.IntervalFits (env : Environment) (s : Settings) : Prop :=
  ∃ poll, number? env.pollInterval = .ok poll ∧ 0 < poll.getD s.pollInterval

/-- Of user and token there is none without the other. -/
def Environment.PairFits (env : Environment) : Prop := env.user.isSome = env.token.isSome

namespace Settings

variable {s s' : Settings} {env : Environment}

theorem overrideMillis_of_number? {name : String} {value : Option String} {x : Option Nat}
    (h : number? value = .ok x) (below : Nat) : overrideMillis name value below = .ok (x.getD below) := by
  cases value with
  | none =>
    cases h
    rfl
  | some text =>
    rw [number?, Option.mapM_some] at h
    obtain ⟨n, hn, rfl⟩ := Except.map_eq_ok h
    simp only [overrideMillis, readMillis, hn]
    rfl

theorem overrideCredentials_of_pairFits (h : env.PairFits) (below : Option Credentials) :
    overrideCredentials env below = .ok ((Credentials.pair? env.user env.token).or below) := by
  obtain ⟨url, user, token, poll, timeout⟩ := env
  cases user <;> cases token <;> first | rfl | cases h

/-- What is checked with the environment on top of settings. -/
theorem withEnvironment_eq (s : Settings) (env : Environment) : s.withEnvironment env = (do
    let credentials ← overrideCredentials env s.credentials
    let pollInterval ← overrideMillis "JOBTREE_POLL_INTERVAL_MS" env.pollInterval s.pollInterval
    let waitTimeout ← overrideMillis "JOBTREE_TIMEOUT_MS" env.timeout s.waitTimeout
    checked { s with baseUrl := env.url.getD s.baseUrl, credentials, pollInterval, waitTimeout }) := rfl

theorem withEnvironment_besideUrl {url : Option String} (hfits : env.UrlFits s)
    (hfits' : { env with url }.UrlFits s') (h : s.besideUrl = s'.besideUrl) :
    (s.withEnvironment env).map besideUrl = (s'.withEnvironment { env with url }).map besideUrl := by
  obtain ⟨below, rfl⟩ := exists_of_besideUrl h
  rw [withEnvironment_eq, withEnvironment_eq]
  exact Except.map_bind_right fun _ => Except.map_bind_right fun _ => Except.map_bind_right fun _ =>
    checked_besideUrl hfits hfits' rfl

/-- An address in the environment is in force before it is checked. -/
theorem withEnvironment_of_url (hurl : env.url ≠ none) (h : s.besideUrl = s'.besideUrl) :
    s.withEnvironment env = s'.withEnvironment env := by
  obtain ⟨url, hurl⟩ := Option.ne_none_iff_exists'.1 hurl
  obtain ⟨below, rfl⟩ := exists_of_besideUrl h
  rw [withEnvironment_eq, withEnvironment_eq, hurl]
  rfl

theorem withEnvironment_besideInterval {pollInterval : Option String} (hfits : env.IntervalFits s)
    (hfits' : { env with pollInterval }.IntervalFits s') (h : s.besideInterval = s'.besideInterval) :
    (s.withEnvironment env).map besideInterval =
      (s'.withEnvironment { env with pollInterval }).map besideInterval := by
  obtain ⟨below, rfl⟩ := exists_of_besideInterval h
  obtain ⟨n, hn, hpos⟩ := hfits
  obtain ⟨n', hn', hpos'⟩ := hfits'
  rw [withEnvironment_eq, withEnvironment_eq, overrideMillis_of_number? hn, overrideMillis_of_number? hn']
  refine Except.map_bind_right fun _ => ?_
  change Except.map _ (overrideMillis _ env.timeout _ >>= _) = Except.map _ (overrideMillis _ env.timeout _ >>= _)
  exact Except.map_bind_right fun _ => checked_besideInterval hpos hpos' rfl

theorem withEnvironment_besidePair {user token : Option String} (hfits : env.PairFits)
    (hfits' : { env with user, token }.PairFits) :
    (s.withEnvironment env).map besidePair = (s.withEnvironment { env with user, token }).map besidePair := by
  rw [withEnvironment_eq, withEnvironment_eq, overrideCredentials_of_pairFits hfits,
    overrideCredentials_of_pairFits hfits']
  change Except.map _ (overrideMillis _ env.pollInterval _ >>= _) =
    Except.map _ (overrideMillis _ env.pollInterval _ >>= _)
  exact Except.map_bind_right fun _ => Except.map_bind_right fun _ => checked_besidePair rfl

/-- Where the environment goes on top of settings, all of it would do. -/
theorem withEnvironment_fits (h : s.withEnvironment env = .ok s') :
    env.UrlFits s ∧ env.IntervalFits s ∧ env.PairFits := by
  rw [withEnvironment_eq] at h
  obtain ⟨credentials, hcredentials, h⟩ := Except.bind_eq_ok h
  obtain ⟨interval, hinterval, h⟩ := Except.bind_eq_ok h
  obtain ⟨wait, -, h⟩ := Except.bind_eq_ok h
  obtain ⟨_, hvalidate, -⟩ := Except.bind_eq_ok h
  obtain ⟨hhttp, hpositive⟩ := validate_eq_ok hvalidate
  obtain ⟨poll, hpoll, rfl⟩ := overrideMillis_eq_ok hinterval
  refine ⟨hhttp, ⟨poll, hpoll, hpositive⟩, ?_⟩
  obtain ⟨url, user, token, _, _⟩ := env
  cases user <;> cases token <;> first | rfl | cases hcredentials

end Settings

/-! ## Runs -/

namespace CommandLine

namespace ConnectionFlags

variable {flags : ConnectionFlags} {files files' : FileView} {env env' : Environment}

/-- The settings in the file that the flags name. -/
def loaded (flags : ConnectionFlags) (files : FileView) : Except Error Settings :=
  match flags.config with
  | some path => Settings.ofFile files path
  | none => .ok .default

theorem loaded_of_config {path : String} (h : flags.config = some path) :
    flags.loaded files = Settings.ofFile files path := by
  rw [loaded, h]

/-- What a failure below the flags is reported as. -/
def failureBelow (flags : ConnectionFlags) : Error → Failure :=
  match flags.config with
  | some path => .during ("Failed to load config " ++ path)
  | none => .cause

theorem settingsBelow_eq (flags : ConnectionFlags) (files : FileView) (env : Environment) :
    flags.settingsBelow files env =
      (flags.loaded files >>= fun s => s.withEnvironment env).mapError flags.failureBelow := by
  unfold settingsBelow loaded failureBelow
  cases flags.config <;> rfl

/-- What the flags cover below them is of no effect. -/
theorem settings_eq_of_map {γ : Type} {blot : Settings → γ}
    (hcovers : ∀ s s', blot s = blot s' → flags.apply s = flags.apply s')
    (h : (flags.loaded files >>= fun s => s.withEnvironment env).map blot =
      (flags.loaded files' >>= fun s => s.withEnvironment env').map blot) :
    flags.settings files env = flags.settings files' env' := by
  rw [settings, settings, settingsBelow_eq, settingsBelow_eq]
  revert h
  generalize (flags.loaded files >>= fun s => s.withEnvironment env) = x
  generalize (flags.loaded files' >>= fun s => s.withEnvironment env') = y
  intro h
  cases x with
  | error e =>
    cases y with
    | error e' =>
      cases h
      rfl
    | ok s' => cases h
  | ok s =>
    cases y with
    | error e' => cases h
    | ok s' =>
      change (flags.apply s).validate.mapError Failure.cause >>= (fun _ => pure (flags.apply s)) =
        (flags.apply s').validate.mapError Failure.cause >>= fun _ => pure (flags.apply s')
      rw [hcovers s s' (Except.ok.inj h)]

theorem apply_of_url (hurl : flags.url ≠ none) (s s' : Settings) (h : s.besideUrl = s'.besideUrl) :
    flags.apply s = flags.apply s' := by
  obtain ⟨url, hurl⟩ := Option.ne_none_iff_exists'.1 hurl
  obtain ⟨below, rfl⟩ := Settings.exists_of_besideUrl h
  rw [apply, apply, hurl]
  rfl

theorem apply_of_pollInterval (hpoll : flags.pollInterval ≠ none) (s s' : Settings)
    (h : s.besideInterval = s'.besideInterval) : flags.apply s = flags.apply s' := by
  obtain ⟨poll, hpoll⟩ := Option.ne_none_iff_exists'.1 hpoll
  obtain ⟨below, rfl⟩ := Settings.exists_of_besideInterval h
  rw [apply, apply, hpoll]
  rfl

theorem apply_of_pair (huser : flags.user ≠ none) (htoken : flags.token ≠ none) (s s' : Settings)
    (h : s.besidePair = s'.besidePair) : flags.apply s = flags.apply s' := by
  obtain ⟨user, huser⟩ := Option.ne_none_iff_exists'.1 huser
  obtain ⟨token, htoken⟩ := Option.ne_none_iff_exists'.1 htoken
  obtain ⟨below, rfl⟩ := Settings.exists_of_besidePair h
  rw [apply, apply, huser, htoken]

/-- The variables add nothing to what a line says. -/
theorem orVariables_eq {line : ConnectionFlags} (hurl : line.url ≠ none ∨ env.url = env'.url)
    (huser : line.user ≠ none ∨ env.user = env'.user) (htoken : line.token ≠ none ∨ env.token = env'.token) :
    line.orVariables env = line.orVariables env' := by
  have hor : ∀ {said a b : Option String}, said ≠ none ∨ a = b → said.or a = said.or b := by
    rintro (_ | _) a b (h | rfl)
    · exact absurd rfl h
    all_goals rfl
  rw [orVariables, orVariables, hor hurl, hor huser, hor htoken]

end ConnectionFlags

open ConnectionFlags

/-- **Settings below others** count for nothing where they would do, whether another run has them or not: an address
and an interval that the line covers, in the environment and in the file, a user and a token that it covers in the
environment, and an address in the file that the environment covers, which need not even do. Where there are settings at
all, everything below the line would do. -/
theorem settings_overridden {files : FileView} {env : Environment} {words : List String} {line : ConnectionFlags}
    {i : Invocation} (hline : Invocation.lineFlags words = .ok line) (hread : Invocation.read env words = .ok i) :
    (line.url ≠ none → ∀ url files' i', Invocation.read { env with url } words = .ok i' →
      (line.loaded files).map Settings.besideUrl = (line.loaded files').map Settings.besideUrl →
      (∀ s, line.loaded files = .ok s → env.UrlFits s) →
      (∀ s, line.loaded files' = .ok s → { env with url }.UrlFits s) →
      i.flags.settings files env = i'.flags.settings files' { env with url }) ∧
    (line.pollInterval ≠ none → ∀ pollInterval files' i', Invocation.read { env with pollInterval } words = .ok i' →
      (line.loaded files).map Settings.besideInterval = (line.loaded files').map Settings.besideInterval →
      (∀ s, line.loaded files = .ok s → env.IntervalFits s) →
      (∀ s, line.loaded files' = .ok s → { env with pollInterval }.IntervalFits s) →
      i.flags.settings files env = i'.flags.settings files' { env with pollInterval }) ∧
    (line.user ≠ none → line.token ≠ none → ∀ user token i', Invocation.read { env with user, token } words = .ok i' →
      env.PairFits → { env with user, token }.PairFits →
      i.flags.settings files env = i'.flags.settings files { env with user, token }) ∧
    (env.url ≠ none → ∀ files',
      (line.loaded files).map Settings.besideUrl = (line.loaded files').map Settings.besideUrl →
      i.flags.settings files env = i.flags.settings files' env) ∧
    ∀ s, i.flags.settings files env = .ok s →
      ∃ below, line.loaded files = .ok below ∧ env.UrlFits below ∧ env.IntervalFits below ∧ env.PairFits := by
  have hflags : ∀ {env' : Environment} {i' : Invocation}, Invocation.read env' words = .ok i' →
      i'.flags = line.orVariables env' := by
    intro env' i' hread'
    obtain ⟨line', hline', hflags⟩ := Invocation.read_flags hread'
    cases hline'.symm.trans hline
    exact hflags
  rw [hflags hread]
  refine ⟨fun hurl url files' i' hread' halike hfits hfits' => ?_,
    fun hpoll pollInterval files' i' hread' halike hfits hfits' => ?_,
    fun huser htoken user token i' hread' hfits hfits' => ?_, fun hurl files' halike => ?_, fun s hs => ?_⟩
  · have hsame : line.orVariables { env with url } = line.orVariables env :=
      orVariables_eq (.inl hurl) (.inr rfl) (.inr rfl)
    rw [hflags hread', hsame]
    refine settings_eq_of_map (apply_of_url ?_) (Except.map_bind_congr halike fun s s' hs hs' h =>
      Settings.withEnvironment_besideUrl (hfits s hs) (hfits' s' hs') h)
    exact fun hnone => hurl (Option.or_eq_none_iff.1 hnone).1
  · rw [hflags hread']
    exact settings_eq_of_map (apply_of_pollInterval hpoll) (Except.map_bind_congr halike fun s s' hs hs' h =>
      Settings.withEnvironment_besideInterval (hfits s hs) (hfits' s' hs') h)
  · have hsame : line.orVariables { env with user, token } = line.orVariables env :=
      orVariables_eq (.inr rfl) (.inl huser) (.inl htoken)
    rw [hflags hread', hsame]
    refine settings_eq_of_map (apply_of_pair ?_ ?_) (Except.map_bind_right fun s =>
      Settings.withEnvironment_besidePair hfits hfits')
    · exact fun hnone => huser (Option.or_eq_none_iff.1 hnone).1
    · exact fun hnone => htoken (Option.or_eq_none_iff.1 hnone).1
  · have hcovers : ∀ s s' : Settings, id s = id s' →
        (line.orVariables env).apply s = (line.orVariables env).apply s' := fun _ _ h => congrArg _ h
    refine settings_eq_of_map hcovers (Except.map_bind_congr halike fun s s' _ _ h => ?_)
    rw [Settings.withEnvironment_of_url hurl h]
  · obtain ⟨_, hbelow, -⟩ := settings_eq_ok hs
    rw [settingsBelow_eq] at hbelow
    obtain ⟨below, hloaded, hbelow⟩ := Except.bind_eq_ok (Except.mapError_eq_ok hbelow)
    exact ⟨below, hloaded, Settings.withEnvironment_fits hbelow⟩

/-- A line that covers everything that a line can cover. -/
def coveringWords : List String :=
  ["--url", "https://ci.example.com", "--user=ann", "--token", "fresh", "--config", "jobtree.toml", "job",
    "--poll-interval-ms", "250", "delete", "nightly"]

def coveredEnvironment : Environment where
  url := some "http://elsewhere:8080/"
  user := some "bob"
  token := some "stale"
  pollInterval := some " 750 "
  timeout := some "90000"

/-- A settings file with one setting. -/
def oneSetting (text : String) : FileView := (FileTree.ofList [("jobtree.toml", text)]).view ""

def coveringLine : ConnectionFlags :=
  ⟨some "https://ci.example.com", some "ann", some "fresh", some "jobtree.toml", none, some 250⟩

def coveringInvocation : Invocation := ⟨coveringLine, .table, false, .command (.job (.delete "nightly" .topLevel))⟩

def coveringSettings : Settings := ⟨"https://ci.example.com", some ⟨"ann", "fresh"⟩, 250, 90000, 30000⟩

/-- The member of a table that has only this one, a text or a whole number. -/
def oneMember? : Option Json → Option (String × (String ⊕ Nat))
  | some (.object [(name, .string text)]) => some (name, .inl text)
  | some (.object [(name, .number (.natural n))]) => some (name, .inr n)
  | _ => none

theorem oneMember?_eq_some {table : Option Json} {name : String} {value : String ⊕ Nat}
    (h : oneMember? table = some (name, value)) : table = some (.object [(name, value.elim .string .nat)]) := by
  unfold oneMember? at h
  split at h <;> cases h <;> rfl

/-- The covering line loads a file with another value of its one setting alike, but for that setting. -/
theorem loaded_oneSetting {γ : Type} {place : Nat} {name : String} {decode : Json → Json.Decode.Decoded γ}
    {blot : Settings → Settings} (hb : Json.Decode.Blots Settings.readField place decode blot)
    (hname : Settings.fieldNames[place]? = some name) {text text' : String} {value value' : String ⊕ Nat}
    (hread : (oneSetting text).read "jobtree.toml" = .ok text)
    (hread' : (oneSetting text').read "jobtree.toml" = .ok text')
    (hparse : oneMember? (Toml.parse? text) = some (name, value))
    (hparse' : oneMember? (Toml.parse? text') = some (name, value'))
    (hvalue : ∃ a, decode (value.elim .string .nat) = .ok a)
    (hvalue' : ∃ a, decode (value'.elim .string .nat) = .ok a) :
    (coveringLine.loaded (oneSetting text)).map blot = (coveringLine.loaded (oneSetting text')).map blot := by
  have hconfig : coveringLine.config = some "jobtree.toml" := rfl
  rw [loaded_of_config hconfig, loaded_of_config hconfig]
  exact Settings.ofFile_reworded hb hname hread (oneMember?_eq_some hparse) hread' (oneMember?_eq_some hparse')
    (.cons ⟨rfl, .inr ⟨rfl, hvalue, hvalue'⟩⟩ .nil)

def addressText : String := "base_url = \"http://a\""

def otherAddressText : String := "base_url = \"http://b\""

def intervalText : String := "poll_interval_ms = 9"

def otherIntervalText : String := "poll_interval_ms = 7"

theorem settings_overridden_covering :
    Invocation.lineFlags coveringWords = .ok coveringLine ∧
      Invocation.read coveredEnvironment coveringWords = .ok coveringInvocation ∧
      coveringInvocation.flags.settings (oneSetting addressText) coveredEnvironment = .ok coveringSettings ∧
      coveringInvocation.flags.settings (oneSetting otherAddressText) coveredEnvironment = .ok coveringSettings ∧
      coveringInvocation.flags.settings (oneSetting otherAddressText) { coveredEnvironment with url := none } =
        .ok coveringSettings ∧
      coveringInvocation.flags.settings (oneSetting addressText)
        { coveredEnvironment with user := none, token := none } = .ok coveringSettings ∧
      coveringInvocation.flags.settings (oneSetting intervalText) coveredEnvironment = .ok coveringSettings ∧
      coveringInvocation.flags.settings (oneSetting otherIntervalText)
        { coveredEnvironment with pollInterval := none } = .ok coveringSettings := by
  have hline : Invocation.lineFlags coveringWords = .ok coveringLine := by decide +kernel
  have hread : Invocation.read coveredEnvironment coveringWords = .ok coveringInvocation := by decide +kernel
  have hs : coveringInvocation.flags.settings (oneSetting addressText) coveredEnvironment = .ok coveringSettings := by
    decide +kernel
  have hs' : coveringInvocation.flags.settings (oneSetting intervalText) coveredEnvironment = .ok coveringSettings := by
    decide +kernel
  obtain ⟨hurl, -, hpair, hcovered, -⟩ := @settings_overridden (oneSetting addressText) _ _ _ _ hline hread
  obtain ⟨-, hpoll, -⟩ := @settings_overridden (oneSetting intervalText) _ _ _ _ hline hread
  have haddress : (coveringLine.loaded (oneSetting addressText)).map Settings.besideUrl =
      (coveringLine.loaded (oneSetting otherAddressText)).map Settings.besideUrl := by
    have hparse : oneMember? (Toml.parse? addressText) = some ("base_url", .inl "http://a") := by decide +kernel
    have hparse' : oneMember? (Toml.parse? otherAddressText) = some ("base_url", .inl "http://b") := by decide +kernel
    exact loaded_oneSetting Settings.blots_baseUrl rfl (by decide +kernel) (by decide +kernel) hparse hparse'
      ⟨_, rfl⟩ ⟨_, rfl⟩
  have hinterval : (coveringLine.loaded (oneSetting intervalText)).map Settings.besideInterval =
      (coveringLine.loaded (oneSetting otherIntervalText)).map Settings.besideInterval := by
    have hparse : oneMember? (Toml.parse? intervalText) = some ("poll_interval_ms", .inr 9) := by decide +kernel
    have hparse' : oneMember? (Toml.parse? otherIntervalText) = some ("poll_interval_ms", .inr 7) := by decide +kernel
    exact loaded_oneSetting Settings.blots_pollInterval rfl (by decide +kernel) (by decide +kernel) hparse hparse'
      ⟨_, rfl⟩ ⟨_, rfl⟩
  have hother : (coveringLine.loaded (oneSetting otherAddressText)).map Settings.baseUrl = .ok "http://b" := by
    decide +kernel
  have hother' : (coveringLine.loaded (oneSetting otherIntervalText)).map Settings.pollInterval = .ok 7 := by
    decide +kernel
  refine ⟨hline, hread, hs, ?_, ?_, ?_, hs', ?_⟩
  · rw [← hcovered (by decide) _ haddress, hs]
  · rw [← hurl (by decide) none _ coveringInvocation (by decide +kernel) haddress ?_ ?_, hs]
    · intro s _
      exact (by decide : Settings.IsHttp "http://elsewhere:8080/")
    · intro s hloaded
      obtain ⟨_, hloaded', hb⟩ := Except.map_eq_ok hother
      cases hloaded'.symm.trans hloaded
      change Settings.IsHttp s.baseUrl
      rw [hb]
      decide
  · rw [← hpair (by decide) (by decide) none none coveringInvocation (by decide +kernel) rfl rfl, hs]
  · rw [← hpoll (by decide) none _ coveringInvocation (by decide +kernel) hinterval ?_ ?_, hs']
    · intro s _
      exact ⟨some 750, by decide +kernel, Nat.succ_pos 749⟩
    · intro s hloaded
      obtain ⟨_, hloaded', hseven⟩ := Except.map_eq_ok hother'
      cases hloaded'.symm.trans hloaded
      exact ⟨none, rfl, hseven.symm ▸ Nat.succ_pos 6⟩

/-- A setting below the line has an effect although the line covers it, where it would not do: an address in the
environment that is none for a server leaves no settings in force. -/
theorem not_ignored_below : ¬ ∀ files env words line i i' url, Invocation.lineFlags words = .ok line →
    line.url ≠ none → Invocation.read env words = .ok i → Invocation.read { env with url } words = .ok i' →
    i.flags.settings files env = i'.flags.settings files { env with url } := by
  intro h
  have hsame := h (oneSetting addressText) coveredEnvironment coveringWords coveringLine coveringInvocation
    coveringInvocation (some "ci.example.com") (by decide +kernel) (by decide) (by decide +kernel) (by decide +kernel)
  revert hsame
  decide +kernel

end CommandLine

end JobHierarchy
