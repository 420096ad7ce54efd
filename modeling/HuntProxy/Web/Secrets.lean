import HuntProxy.Lib.Unwinding
import HuntProxy.Web.CustomProxies

/-!
# The passwords of the custom proxies

Nothing that the web interface answers or logs about the custom proxies depends on their
passwords, but for whether there is one: neither on those in the table nor on those in the
requests; nor does the proxy that a test connects to, or what it asks for there. Runs that differ
only in passwords look the same, with any requests in any order and tests that come to the same.

## Main definitions

- `ProxyApi.Alike` — states that differ only in passwords
- `ProxyInput.Alike` — requests that differ only in passwords

## Main results

- `unwinding_step` — a step keeps this, and shows nothing of them
- `outputs_alike` — runs that differ only in passwords look the same
-/

namespace HuntProxy.Web

open Ip (Str)

/-! ### Proxies with hidden passwords -/

/-- What is shown for a password, if there is one. -/
def maskPassword (password : Str) : Str := if password = [] then [] else maskText

theorem maskProxy_eq (p : CustomProxy) :
    maskProxy p = { p with password := maskPassword p.password } := by
  rw [maskProxy, maskPassword]
  by_cases hp : p.password = []
  · rw [if_pos hp, if_pos hp, ← hp]
  · rw [if_neg hp, if_neg hp]

/-- Two tables that differ only in passwords. -/
def AlikeTables (t t' : ProxyTable) : Prop := t.mapValues maskProxy = t'.mapValues maskProxy

namespace AlikeTables

variable {t t' : ProxyTable}

theorem get? (h : AlikeTables t t') (id : Str) : (t.get? id).map maskProxy = (t'.get? id).map maskProxy := by
  rw [← Dict.get?_mapValues, ← Dict.get?_mapValues, h]

/-- Both have the proxy, or neither. -/
theorem cases_get? (h : AlikeTables t t') (id : Str) :
    t.get? id = none ∧ t'.get? id = none ∨
      ∃ p p', t.get? id = some p ∧ t'.get? id = some p' ∧ maskProxy p = maskProxy p' := by
  have hget := h.get? id
  cases hp : t.get? id with
  | none =>
    rw [hp] at hget
    exact .inl ⟨rfl, Option.map_eq_none_iff.mp hget.symm⟩
  | some p =>
    rw [hp] at hget
    obtain ⟨p', hp', hmask⟩ := Option.map_eq_some_iff.mp hget.symm
    exact .inr ⟨p, p', rfl, hp', hmask.symm⟩

theorem contains (h : AlikeTables t t') (id : Str) : t.contains id = t'.contains id := by
  rcases h.cases_get? id with ⟨hp, hp'⟩ | ⟨p, p', hp, hp', -⟩ <;> rw [Dict.contains, Dict.contains, hp, hp']
  rfl

theorem getCustomProxy (h : AlikeTables t t') (id : Str) :
    getCustomProxy t id = getCustomProxy t' id := by
  have hget := congrArg (Option.map (proxyObject id)) (h.get? id)
  rw [Option.map_map, Option.map_map] at hget
  exact hget

/-- The list is sorted by the names, which are shown. -/
theorem getCustomProxies (h : AlikeTables t t') : getCustomProxies t = getCustomProxies t' := by
  have hsort : ∀ d : ProxyTable, Web.getCustomProxies d =
      (d.mapValues maskProxy).items.insertionSort (fun a b => a.2.name ≤ b.2.name) := fun d => by
    refine List.map_insertionSort _ _ _ _ (fun a _ b _ => ?_)
    rw [maskProxy_eq, maskProxy_eq]
  rw [hsort, hsort, h]

theorem insert (h : AlikeTables t t') (id : Str) {p p' : CustomProxy} (hp : maskProxy p = maskProxy p') :
    AlikeTables (t.insert id p) (t'.insert id p') := by
  rw [AlikeTables, Dict.mapValues_insert, Dict.mapValues_insert, h, hp]

theorem erase (h : AlikeTables t t') (id : Str) : AlikeTables (t.erase id) (t'.erase id) := by
  rw [AlikeTables, Dict.mapValues_erase, Dict.mapValues_erase, h]

end AlikeTables

/-- Proxies that look the same differ in the password only, and both have one or neither. -/
theorem fields_of_maskProxy {p p' : CustomProxy} (h : maskProxy p = maskProxy p') :
    p' = { p with password := p'.password } ∧ maskPassword p.password = maskPassword p'.password := by
  rw [maskProxy_eq, maskProxy_eq] at h
  cases p
  cases p'
  simp only [CustomProxy.mk.injEq] at h ⊢
  simp [h]

/-! ### Changes -/

/-- Data that differ only in the password, which is a secret in both. -/
structure AlikeData (data data' : JsonObject) : Prop where
  rest : ∀ key, key ≠ "password" → data.get? key = data'.get? key
  password : data.get? "password" = data'.get? "password" ∨
    ∃ s s', data.get? "password" = some (.text s) ∧ data'.get? "password" = some (.text s') ∧
      s ≠ [] ∧ s' ≠ [] ∧ s ≠ maskText ∧ s' ≠ maskText

section

variable {w : Rendering} {data data' : JsonObject} {t t' : ProxyTable} {now : Time}

theorem AlikeData.getD (h : AlikeData data data') {key : String} (hkey : key ≠ "password")
    (default : Json) : data.getD key default = data'.getD key default := by
  rw [JsonObject.getD, JsonObject.getD, h.rest key hkey]

/-- The passwords of new proxies look the same. -/
theorem AlikeData.textColumn (h : AlikeData data data') :
    (Web.textColumn w (data.getD "password" (.text []))).map maskPassword =
      (Web.textColumn w (data'.getD "password" (.text []))).map maskPassword := by
  rcases h.password with heq | ⟨s, s', hs, hs', hne, hne', -, -⟩
  · rw [JsonObject.getD, JsonObject.getD, heq]
  · rw [JsonObject.getD, JsonObject.getD, hs, hs', Option.getD_some, Option.getD_some, textColumn_text,
      textColumn_text, Option.map_some, Option.map_some, maskPassword, maskPassword, if_neg hne,
      if_neg hne']

theorem AlikeData.changed (h : AlikeData data data') {key : String} (hkey : key ≠ "password")
    {α : Type} (old : α) (column : Json → Option α) :
    Web.changed data key old column = Web.changed data' key old column := by
  rw [Web.changed, Web.changed, h.rest key hkey]

/-- The changed passwords look the same. -/
theorem AlikeData.changedPassword (h : AlikeData data data') {password password' : Str}
    (hmask : maskPassword password = maskPassword password') :
    (Web.changed data "password" password
        (fun v => if v = .text maskText then some password else Web.textColumn w v)).map maskPassword =
      (Web.changed data' "password" password'
        (fun v => if v = .text maskText then some password' else Web.textColumn w v)).map
          maskPassword := by
  rcases h.password with heq | ⟨s, s', hs, hs', hne, hne', hreal, hreal'⟩
  · rw [Web.changed, Web.changed, heq]
    cases data'.get? "password" with
    | none => exact congrArg some hmask
    | some v =>
      by_cases hv : v = .text maskText
      · simp only [if_pos hv, Option.map_some, hmask]
      · simp only [if_neg hv]
  · have hnot : Json.text s ≠ .text maskText := fun heq => hreal (text_injective heq)
    have hnot' : Json.text s' ≠ .text maskText := fun heq => hreal' (text_injective heq)
    simp only [Web.changed, hs, hs', if_neg hnot, if_neg hnot', textColumn_text, Option.map_some,
      maskPassword, if_neg hne, if_neg hne']

/-- What a change comes to: alike tables, and the same for the eye. -/
structure AlikeResults (r r' : ProxyTable × List ProxyEvent × Option JsonObject) : Prop where
  tables : AlikeTables r.1 r'.1
  shown : r.2 = r'.2

theorem createCustomProxy_alike (ht : AlikeTables t t') (hd : AlikeData data data') :
    Option.Rel AlikeResults (createCustomProxy w t data now) (createCustomProxy w t' data' now) := by
  have hmask : (textColumn w (data.getD "password" (.text []))).map maskPassword =
      (textColumn w (data'.getD "password" (.text []))).map maskPassword := hd.textColumn
  rw [createCustomProxy, createCustomProxy, hd.getD (show "id" ≠ "password" by decide),
    hd.getD (show "name" ≠ "password" by decide), hd.getD (show "host" ≠ "password" by decide),
    hd.getD (show "port" ≠ "password" by decide), hd.getD (show "protocol" ≠ "password" by decide),
    hd.getD (show "username" ≠ "password" by decide), hd.getD (show "test_url" ≠ "password" by decide)]
  generalize data'.getD "protocol" (.str "socks5") = protocol
  generalize data'.getD "port" (.int 0) = port
  generalize textColumn w (data.getD "password" (.text [])) = column at hmask ⊢
  generalize textColumn w (data'.getD "password" (.text [])) = column' at hmask ⊢
  -- every check in front of the password reads the same in both runs
  cases stripped (data'.getD "id" (.text [])) with
  | none => exact .none
  | some id =>
  cases stripped (data'.getD "name" (.text [])) with
  | none => exact .none
  | some name =>
  cases stripped (data'.getD "host" (.text [])) with
  | none => exact .none
  | some host =>
  dsimp only
  by_cases hmissing : id = [] ∨ name = [] ∨ host = [] ∨ port.truthy = false
  · rw [if_pos hmissing, if_pos hmissing]
    exact .some ⟨ht, rfl⟩
  rw [if_neg hmissing, if_neg hmissing]
  have hfails : Option.Rel AlikeResults (some (t, [], none)) (some (t', [], none)) :=
    .some ⟨ht, rfl⟩
  cases (pyInt port).bind integerColumn with
  | none => exact hfails
  | some number =>
  cases textColumn w protocol with
  | none => exact hfails
  | some protocolText =>
  cases textColumn w (data'.getD "username" (.text [])) with
  | none => exact hfails
  | some username =>
  cases column with
  | none =>
    rw [Option.map_none] at hmask
    rw [Option.map_eq_none_iff.mp hmask.symm]
    exact hfails
  | some password =>
  -- both passwords are shown alike
  obtain ⟨password', hpassword', hshown⟩ := Option.map_eq_some_iff.mp hmask.symm
  subst hpassword'
  cases textColumn w (data'.getD "test_url" (.text [])) with
  | none => exact hfails
  | some testUrl =>
  dsimp only
  rw [ht.contains]
  by_cases hcontains : t'.contains id = true
  · rw [if_pos hcontains, if_pos hcontains]
    exact hfails
  · rw [if_neg hcontains, if_neg hcontains]
    refine .some ?_
    have hinsert : AlikeTables (t.insert id
        { name, protocol := protocolText, host, port := number, username, password, testUrl,
          lastCheckAt := 0, lastCheckStatus := [], lastCheckLatency := -1, enabled := 1,
          createdAt := now, updatedAt := now })
        (t'.insert id
          { name, protocol := protocolText, host, port := number, username, password := password',
            testUrl, lastCheckAt := 0, lastCheckStatus := [], lastCheckLatency := -1, enabled := 1,
            createdAt := now, updatedAt := now }) := by
      refine ht.insert id ?_
      rw [maskProxy_eq, maskProxy_eq]
      simp only [hshown]
    exact ⟨hinsert, by rw [hinsert.getCustomProxy id]⟩

/-- The changed rows look the same. -/
theorem changedRow_alike (hd : AlikeData data data') {p p' : CustomProxy}
    (hp : maskProxy p = maskProxy p') :
    (changedRow w data now p).map maskProxy = (changedRow w data' now p').map maskProxy := by
  obtain ⟨hfields, hmask⟩ := fields_of_maskProxy hp
  have hpassword := hd.changedPassword (w := w) hmask
  generalize hq : p'.password = password' at hfields hpassword
  subst hfields
  rw [changedRow, changedRow, hd.changed (show "name" ≠ "password" by decide),
    hd.changed (show "protocol" ≠ "password" by decide), hd.changed (show "host" ≠ "password" by decide),
    hd.changed (show "port" ≠ "password" by decide),
    hd.changed (show "username" ≠ "password" by decide),
    hd.changed (show "test_url" ≠ "password" by decide),
    hd.changed (show "enabled" ≠ "password" by decide)]
  dsimp only
  generalize changed data "password" p.password
    (fun v => if v = .text maskText then some p.password else textColumn w v) = column at hpassword ⊢
  generalize changed data' "password" password'
    (fun v => if v = .text maskText then some password' else textColumn w v) = column' at hpassword ⊢
  have hcolumns : column = none ∧ column' = none ∨ ∃ s s', column = some s ∧ column' = some s' ∧
      maskPassword s = maskPassword s' := by
    cases column with
    | none => exact .inl ⟨rfl, Option.map_eq_none_iff.mp hpassword.symm⟩
    | some s =>
      obtain ⟨s', hs', hshown⟩ := Option.map_eq_some_iff.mp hpassword.symm
      exact .inr ⟨s, s', rfl, hs', hshown.symm⟩
  rcases hcolumns with ⟨rfl, rfl⟩ | ⟨s, s', rfl, rfl, hshown⟩
  · split <;> rfl
  · cases changed data' "name" p.name (fun v => some (Text.strip (pyStr w v))) with
    | none => rfl
    | some name =>
    cases changed data' "protocol" p.protocol (textColumn w) with
    | none => rfl
    | some protocol =>
    cases changed data' "host" p.host (fun v => some (Text.strip (pyStr w v))) with
    | none => rfl
    | some host =>
    cases changed data' "port" p.port (fun v => (pyInt v).bind integerColumn) with
    | none => rfl
    | some port =>
    cases changed data' "username" p.username (textColumn w) with
    | none => rfl
    | some username =>
    cases changed data' "test_url" p.testUrl (textColumn w) with
    | none => rfl
    | some testUrl =>
    cases changed data' "enabled" p.enabled (fun v => some (if v.truthy then 1 else 0)) with
    | none => rfl
    | some enabled =>
    simp only [Option.map_some, maskProxy_eq, hshown]

theorem updateCustomProxy_alike (ht : AlikeTables t t') (hd : AlikeData data data') (id : Str) :
    AlikeResults (updateCustomProxy w t id data now) (updateCustomProxy w t' id data' now) := by
  rcases ht.cases_get? id with ⟨hp, hp'⟩ | ⟨p, p', hp, hp', hmask⟩
  · rw [updateCustomProxy, updateCustomProxy, hp, hp']
    exact ⟨ht, rfl⟩
  · have hrow : (changedRow w data now p).map maskProxy = (changedRow w data' now p').map maskProxy :=
      changedRow_alike hd hmask
    rw [updateCustomProxy, updateCustomProxy, hp, hp']
    dsimp only
    cases hchanged : changedRow w data now p with
    | none =>
      rw [hchanged] at hrow
      rw [Option.map_eq_none_iff.mp hrow.symm]
      exact ⟨ht, rfl⟩
    | some q =>
      rw [hchanged] at hrow
      obtain ⟨q', hchanged', hshown⟩ := Option.map_eq_some_iff.mp hrow.symm
      rw [hchanged']
      have hinsert := ht.insert id hshown.symm
      exact ⟨hinsert, congrArg (Prod.mk [ProxyEvent.updated id]) (hinsert.getCustomProxy id)⟩

theorem toggleCustomProxy_alike (ht : AlikeTables t t') (id : Str) (now : Time) :
    AlikeResults (toggleCustomProxy t id now) (toggleCustomProxy t' id now) := by
  rcases ht.cases_get? id with ⟨hp, hp'⟩ | ⟨p, p', hp, hp', hmask⟩
  · rw [toggleCustomProxy, toggleCustomProxy, hp, hp']
    exact ⟨ht, rfl⟩
  · rw [toggleCustomProxy, toggleCustomProxy, hp, hp']
    obtain ⟨hfields, hpassword⟩ := fields_of_maskProxy hmask
    generalize p'.password = password' at hfields hpassword
    subst hfields
    have hinsert : AlikeTables
        (t.insert id { p with enabled := if p.enabled ≠ 0 then 0 else 1, updatedAt := now })
        (t'.insert id { p with
          enabled := if p.enabled ≠ 0 then 0 else 1, updatedAt := now, password := password' }) := by
      refine ht.insert id ?_
      rw [maskProxy_eq, maskProxy_eq]
      simp only [hpassword]
    exact ⟨hinsert, congrArg (Prod.mk _) (hinsert.getCustomProxy id)⟩

theorem updateProxyCheck_alike (ht : AlikeTables t t') (id : Str) (r : ProbeResult) :
    AlikeTables (updateProxyCheck t id r now) (updateProxyCheck t' id r now) := by
  rw [updateProxyCheck, updateProxyCheck, Dict.modify, Dict.modify]
  rcases ht.cases_get? id with ⟨hp, hp'⟩ | ⟨p, p', hp, hp', hmask⟩
  · rw [hp, hp']
    exact ht
  · rw [hp, hp']
    obtain ⟨hfields, hpassword⟩ := fields_of_maskProxy hmask
    generalize p'.password = password' at hfields hpassword
    subst hfields
    refine ht.insert id ?_
    rw [maskProxy_eq, maskProxy_eq]
    simp only [hpassword]

end

/-! ### Runs -/

/-- States that differ only in passwords. -/
structure ProxyApi.Alike (s s' : ProxyApi) : Prop where
  tables : AlikeTables s.table s'.table
  probes : s.probes = s'.probes

/-- Requests that differ only in passwords, and the same ends of tests. -/
inductive ProxyInput.Alike (loads : Bytes → Option Json) : ProxyInput → ProxyInput → Prop
  | request (method rawPath : Str) {body body' : Bytes} (now : Time)
      (h : AlikeData (jsonBody loads body) (jsonBody loads body')) :
      ProxyInput.Alike loads (.request method rawPath body now) (.request method rawPath body' now)
  | finished (i : ℕ) (outcome : ProbeOutcome) (now : Time) :
      ProxyInput.Alike loads (.finished i outcome now) (.finished i outcome now)

section

variable {w : Rendering} {lower : LowerCase} {upper : Str → Str} {loads : Bytes → Option Json}
  {s s' : ProxyApi} {data data' : JsonObject} {now : Time}

theorem start_alike (hs : s.Alike s') (probe : Probe) :
    (s.start probe).1.Alike (s'.start probe).1 ∧ (s.start probe).2 = (s'.start probe).2 :=
  ⟨⟨hs.tables, congrArg (· ++ [probe]) hs.probes⟩, rfl⟩

theorem startTest_alike (hs : s.Alike s') (id : Str) :
    (s.startTest id).1.Alike (s'.startTest id).1 ∧ (s.startTest id).2 = (s'.startTest id).2 := by
  rw [ProxyApi.startTest, ProxyApi.startTest]
  rcases hs.tables.cases_get? id with ⟨hp, hp'⟩ | ⟨p, p', hp, hp', hmask⟩
  · rw [hp, hp']
    exact ⟨hs, rfl⟩
  · rw [hp, hp']
    obtain ⟨hfields, -⟩ := fields_of_maskProxy hmask
    generalize p'.password = password' at hfields
    subst hfields
    dsimp only
    by_cases henabled : p.enabled = 0
    · rw [if_pos henabled, if_pos henabled]
      exact ⟨hs, rfl⟩
    · rw [if_neg henabled, if_neg henabled]
      exact start_alike hs _

theorem startDirect_alike (hs : s.Alike s') (hd : AlikeData data data') :
    (s.startDirect data).1.Alike (s'.startDirect data').1 ∧
      (s.startDirect data).2 = (s'.startDirect data').2 := by
  rw [ProxyApi.startDirect, ProxyApi.startDirect, hd.getD (show "host" ≠ "password" by decide),
    hd.getD (show "port" ≠ "password" by decide), hd.getD (show "protocol" ≠ "password" by decide),
    hd.getD (show "username" ≠ "password" by decide),
    hd.getD (show "test_url" ≠ "password" by decide)]
  split
  · split
    · exact ⟨hs, rfl⟩
    · exact start_alike hs _
  · exact ⟨hs, rfl⟩

theorem handle_alike (hs : s.Alike s') (method rawPath : Str) {body body' : Bytes} (now : Time)
    (hd : AlikeData (jsonBody loads body) (jsonBody loads body')) :
    (s.handle w upper loads method rawPath body now).1.Alike
        (s'.handle w upper loads method rawPath body' now).1 ∧
      (s.handle w upper loads method rawPath body now).2 =
        (s'.handle w upper loads method rawPath body' now).2 := by
  rw [ProxyApi.handle, ProxyApi.handle]
  cases (Registration.runAll upper proxyRoutes).matchHandler upper method (beforeFirst '?' rawPath) with
  | none => exact ⟨hs, rfl⟩
  | some handler =>
  cases handler with
  | list => exact ⟨hs, by dsimp only; rw [hs.tables.getCustomProxies]⟩
  | create =>
    have hcreate : Option.Rel AlikeResults (createCustomProxy w s.table (jsonBody loads body) now)
        (createCustomProxy w s'.table (jsonBody loads body') now) :=
      createCustomProxy_alike hs.tables hd
    dsimp only
    revert hcreate
    generalize createCustomProxy w s.table (jsonBody loads body) now = r
    generalize createCustomProxy w s'.table (jsonBody loads body') now = r'
    rintro (h | _)
    · obtain ⟨htables, hshown⟩ := h
      exact ⟨⟨htables, hs.probes⟩, congrArg (fun r : List ProxyEvent × Option JsonObject =>
        (r.1, some (changeAnswer r.2 "id, name, host and port are required" 400))) hshown⟩
    · exact ⟨hs, rfl⟩
  | testDirect =>
    obtain ⟨hstates, hanswer⟩ := startDirect_alike hs hd
    exact ⟨hstates, congrArg (fun r : ProxyAnswer => ([], some r)) hanswer⟩
  | get =>
    dsimp only
    split
    · exact ⟨hs, rfl⟩
    · rw [hs.tables.getCustomProxy]
      cases getCustomProxy s'.table (proxyId (beforeFirst '?' rawPath) []) <;> exact ⟨hs, rfl⟩
  | post =>
    dsimp only
    split
    · have htoggle := toggleCustomProxy_alike hs.tables
        (proxyId (beforeFirst '?' rawPath) "/toggle".toList) now
      exact ⟨⟨htoggle.tables, hs.probes⟩, congrArg (fun r : List ProxyEvent × Option JsonObject =>
        (r.1, some (changeAnswer r.2 "not found" 404))) htoggle.shown⟩
    · split
      · obtain ⟨hstates, hanswer⟩ := startTest_alike hs
          (proxyId (beforeFirst '?' rawPath) "/test".toList)
        exact ⟨hstates, congrArg (fun r : ProxyAnswer => ([], some r)) hanswer⟩
      · have hupdate : AlikeResults (updateCustomProxy w s.table (proxyId (beforeFirst '?' rawPath) [])
          (jsonBody loads body) now) (updateCustomProxy w s'.table
            (proxyId (beforeFirst '?' rawPath) []) (jsonBody loads body') now) :=
          updateCustomProxy_alike hs.tables hd _
        exact ⟨⟨hupdate.tables, hs.probes⟩, congrArg (fun r : List ProxyEvent × Option JsonObject =>
          (r.1, some (changeAnswer r.2 "not found" 404))) hupdate.shown⟩
  | delete =>
    dsimp only
    split
    · exact ⟨hs, rfl⟩
    · exact ⟨⟨hs.tables.erase _, hs.probes⟩, rfl⟩

theorem finish_alike (hs : s.Alike s') (lower : LowerCase) (i : ℕ) (outcome : ProbeOutcome)
    (now : Time) :
    (s.finish lower i outcome now).1.Alike (s'.finish lower i outcome now).1 ∧
      (s.finish lower i outcome now).2 = (s'.finish lower i outcome now).2 := by
  rw [ProxyApi.finish, ProxyApi.finish, hs.probes]
  cases s'.probes[i]? with
  | none => exact ⟨hs, rfl⟩
  | some probe =>
    dsimp only
    cases probe.id with
    | none => exact ⟨⟨hs.tables, rfl⟩, rfl⟩
    | some id => exact ⟨⟨updateProxyCheck_alike hs.tables id _, rfl⟩, rfl⟩

/-- A step keeps the likeness, and shows nothing of the passwords. -/
theorem unwinding_step : Unwinding (ProxyApi.step w lower upper loads) ProxyApi.Alike
    (ProxyInput.Alike loads) where
  output hs hi := by
    cases hi with
    | request method rawPath now hd => exact (handle_alike hs method rawPath now hd).2
    | finished i outcome now => exact (finish_alike hs lower i outcome now).2
  next hs hi := by
    cases hi with
    | request method rawPath now hd => exact (handle_alike hs method rawPath now hd).1
    | finished i outcome now => exact (finish_alike hs lower i outcome now).1

/-- **Runs that differ only in passwords look the same.** -/
theorem outputs_alike (hs : s.Alike s') {inputs inputs' : List ProxyInput}
    (hinputs : List.Forall₂ (ProxyInput.Alike loads) inputs inputs') :
    outputs (ProxyApi.step w lower upper loads) s inputs =
      outputs (ProxyApi.step w lower upper loads) s' inputs' :=
  unwinding_step.outputs_eq hs hinputs

end

/-- A proxy with a password. -/
def proxyWith (password : Str) : CustomProxy :=
  ⟨"home".toList, "socks5".toList, "192.0.2.1".toList, 1080, "me".toList, password, [], 0, [], -1, 1, 0,
    0⟩

/-- The body of a request that changes the password. -/
def passwordBody (password : String) : Bytes :=
  ascii ("\x7b\"password\": \"" ++ password ++ "\"\x7d")

/-- The values of two such bodies. -/
def loadPasswords (body : Bytes) : Option Json :=
  if body = passwordBody "one" then some (.obj (.ofList [("password", .str "one")]))
  else if body = passwordBody "two" then some (.obj (.ofList [("password", .str "two")]))
  else none

theorem outputs_alike_passwords :
    outputs (ProxyApi.step ⟨fun _ => [], fun _ => []⟩ asciiLowerCase id loadPasswords)
        ⟨Dict.empty.insert "a".toList (proxyWith "red".toList), []⟩
        [.request "POST".toList "/api/custom-proxies/a".toList (passwordBody "one") 1,
          .request "POST".toList "/api/custom-proxies/a/test".toList [] 2,
          .request "GET".toList "/api/custom-proxies".toList [] 3,
          .finished 0 (.reached 5 200 7) 4] =
      outputs (ProxyApi.step ⟨fun _ => [], fun _ => []⟩ asciiLowerCase id loadPasswords)
        ⟨Dict.empty.insert "a".toList (proxyWith "blue".toList), []⟩
        [.request "POST".toList "/api/custom-proxies/a".toList (passwordBody "two") 1,
          .request "POST".toList "/api/custom-proxies/a/test".toList [] 2,
          .request "GET".toList "/api/custom-proxies".toList [] 3,
          .finished 0 (.reached 5 200 7) 4] := by
  have htables : AlikeTables (Dict.empty.insert "a".toList (proxyWith "red".toList))
      (Dict.empty.insert "a".toList (proxyWith "blue".toList)) := by
    rw [AlikeTables, Dict.mapValues_insert, Dict.mapValues_insert]
    rfl
  have hstates : ProxyApi.Alike ⟨Dict.empty.insert "a".toList (proxyWith "red".toList), []⟩
      ⟨Dict.empty.insert "a".toList (proxyWith "blue".toList), []⟩ := ⟨htables, rfl⟩
  have hone : jsonBody loadPasswords (passwordBody "one") = .ofList [("password", .str "one")] := by
    decide
  have htwo : jsonBody loadPasswords (passwordBody "two") = .ofList [("password", .str "two")] := by
    decide
  refine outputs_alike hstates (.cons (.request _ _ _ ⟨fun key hkey => ?_, .inr ?_⟩)
    (.cons (.request _ _ _ ⟨fun _ _ => rfl, .inl rfl⟩)
      (.cons (.request _ _ _ ⟨fun _ _ => rfl, .inl rfl⟩) (.cons (.finished _ _ _) .nil))))
  · rw [hone, htwo]
    simp [JsonObject.ofList, JsonObject.get?, hkey.symm]
  · rw [hone, htwo]
    exact ⟨"one".toList, "two".toList, rfl, rfl, by decide, by decide, by decide, by decide⟩

end HuntProxy.Web
