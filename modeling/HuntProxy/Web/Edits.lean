import HuntProxy.Channel.State
import HuntProxy.Lib.Machine
import HuntProxy.Web.CustomProxies

/-!
# Editing a custom proxy

The page loads a proxy, and sends all of it back when it has been edited. What comes back
unedited changes nothing but the time of the last change; in particular the asterisks do not
become the password. This rests on what has been stored: names are trimmed, ports fit into their
column, and a proxy is on or off.

A proxy is named in the path of its URL. Three names cannot be used there, because the paths
have a meaning of their own.

## Main definitions

- `CustomProxy.Sound` — what holds of a stored proxy
- `proxyUrl` — the path for a proxy

## Main results

- `unquote_quote` — a name is read as it was written into a URL
- `sound_of_reaches` — every stored proxy is sound
- `edit_unchanged` — an unedited proxy stays as it is
-/

namespace HuntProxy.Web

open Ip (Str)

/-! ### Names in URLs -/

/-- A letter of a quoted text. -/
def isQuoted (c : Char) : Bool := isSafe c || c == '%'

theorem hexDigit_quoted : ∀ d < 16, Url.hexValue? ((Nat.digitChar d).toUpper) = some d ∧
    isQuoted ((Nat.digitChar d).toUpper) = true := by decide

theorem percent_eq (b : UInt8) : percent b =
    ['%', (Nat.digitChar (b.toNat / 16 % 16)).toUpper, (Nat.digitChar (b.toNat % 16)).toUpper] := rfl

theorem unquoteBytes_percent (b : UInt8) (s : Str) :
    Url.unquoteBytes (percent b ++ s) = b :: Url.unquoteBytes s := by
  have hlt : b.toNat < 256 := b.toNat_lt
  have hhigh := (hexDigit_quoted (b.toNat / 16 % 16) (Nat.mod_lt _ (by omega))).1
  have hlow := (hexDigit_quoted (b.toNat % 16) (Nat.mod_lt _ (by omega))).1
  have hsum : 16 * (b.toNat / 16 % 16) + b.toNat % 16 = b.toNat := by omega
  simp only [percent_eq, List.cons_append, List.nil_append, Url.unquoteBytes, hhigh, hlow, hsum,
    UInt8.ofNat_toNat]

theorem unquoteBytes_flatMap_percent (l : Bytes) (s : Str) :
    Url.unquoteBytes (l.flatMap percent ++ s) = l ++ Url.unquoteBytes s := by
  induction l with
  | nil => rfl
  | cons b l ih => rw [List.flatMap_cons, List.append_assoc, unquoteBytes_percent, ih, List.cons_append]

theorem ascii_of_isSafe {c : Char} (h : isSafe c = true) : c.toNat < 128 := by
  simp only [isSafe, Bool.or_eq_true, decide_eq_true_eq] at h
  rcases h with (((h | rfl) | rfl) | rfl) | rfl
  · exact LowerCase.ascii_of_isAlphanum h
  all_goals decide

theorem unquoteBytes_quote (s : Str) : Url.unquoteBytes (quote s) = Utf8.encode s := by
  induction s with
  | nil => rfl
  | cons c s ih =>
    rw [quote, List.flatMap_cons, Utf8.encode_cons]
    by_cases hsafe : isSafe c = true
    · have hpercent : c ≠ '%' := by
        rintro rfl
        exact absurd hsafe (by decide)
      rw [if_pos hsafe, List.singleton_append, Url.unquoteBytes_cons hpercent,
        Utf8.utf8EncodeChar_of_ascii (ascii_of_isSafe hsafe), ← quote, ih]
      rfl
    · rw [if_neg hsafe, unquoteBytes_flatMap_percent, ← quote, ih]

theorem isQuoted_quote (s : Str) : ∀ c ∈ quote s, isQuoted c = true := by
  intro c hc
  obtain ⟨d, -, hd⟩ := List.mem_flatMap.mp hc
  by_cases hsafe : isSafe d = true
  · rw [if_pos hsafe] at hd
    rw [List.mem_singleton.mp hd, isQuoted, hsafe, Bool.true_or]
  · rw [if_neg hsafe] at hd
    obtain ⟨b, -, hb⟩ := List.mem_flatMap.mp hd
    rw [percent_eq] at hb
    rcases List.mem_cons.mp hb with rfl | hb
    · rfl
    · rcases List.mem_pair.mp hb with rfl | rfl
      · exact (hexDigit_quoted _ (Nat.mod_lt _ (by omega))).2
      · exact (hexDigit_quoted _ (Nat.mod_lt _ (by omega))).2

/-- **A name is read as it was written into a URL.** -/
theorem unquote_quote (s : Str) : Url.unquote (quote s) = s := by
  have hascii : ∀ c ∈ quote s, Url.isAscii c = true := fun c hc => by
    have hquoted := isQuoted_quote s c hc
    rw [isQuoted, Bool.or_eq_true, beq_iff_eq] at hquoted
    rcases hquoted with h | rfl
    · exact decide_eq_true (ascii_of_isSafe h)
    · rfl
  rw [Url.unquote_of_ascii hascii, unquoteBytes_quote, Utf8.decodeReplace_encode]

theorem quote_injective {s t : Str} (h : quote s = quote t) : s = t := by
  rw [← unquote_quote s, h, unquote_quote]

/-- The path of a proxy. -/
def proxyUrl (id : Str) : Str := proxyPath ++ quote id

/-- The names that have a meaning of their own in a path. -/
def reservedIds : List Str := ["toggle".toList, "test".toList, "test-direct".toList]

theorem notMem_quote {c : Char} (h : isQuoted c = false) (s : Str) : c ∉ quote s := fun hc => by
  rw [isQuoted_quote s c hc] at h
  cases h

theorem beforeFirst_proxyUrl (id : Str) : beforeFirst '?' (proxyUrl id) = proxyUrl id := by
  rw [beforeFirst, List.takeWhile_eq_self_iff]
  intro c hc
  rw [decide_eq_true_eq]
  rintro rfl
  rcases List.mem_append.mp hc with hc | hc
  · exact absurd hc (by decide)
  · exact notMem_quote (by decide) id hc

/-- A path ends like one of the special ones only if the name is the special one. -/
theorem endsWith_proxyUrl {word : Str} (hword : '/' ∉ word) (hquote : quote word = word) (id : Str) :
    endsWith (proxyUrl id) ('/' :: word) = decide (id = word) := by
  have hpath : proxyUrl id = "/api/custom-proxies".toList ++ '/' :: quote id := by
    have hsplit : proxyPath = "/api/custom-proxies".toList ++ ['/'] := by decide
    rw [proxyUrl, hsplit, List.append_assoc, List.singleton_append]
  rw [Bool.eq_iff_iff, endsWith, List.isSuffixOf_iff_suffix, decide_eq_true_eq, hpath]
  constructor
  · rintro ⟨front, heq⟩
    have hlast := congrArg (behindLast '/') heq
    rw [behindLast_append _ hword, behindLast_append _ (notMem_quote (by decide) id)] at hlast
    exact quote_injective (hlast.symm.trans hquote.symm)
  · rintro rfl
    rw [hquote]
    exact List.suffix_append _ _

theorem proxyId_proxyUrl (id : Str) : proxyId (proxyUrl id) [] = id := by
  rw [proxyId, List.length_nil, Nat.sub_zero, List.take_length, proxyUrl, List.drop_left, unquote_quote]

theorem endsWith_special (id : Str) :
    endsWith (proxyUrl id) "/toggle".toList = decide (id = "toggle".toList) ∧
      endsWith (proxyUrl id) "/test".toList = decide (id = "test".toList) :=
  ⟨endsWith_proxyUrl (by decide) (by decide) id, endsWith_proxyUrl (by decide) (by decide) id⟩

theorem proxyUrl_eq_iff (id : Str) :
    proxyUrl id = "/api/custom-proxies/test-direct".toList ↔ id = "test-direct".toList := by
  have hdirect : "/api/custom-proxies/test-direct".toList = proxyPath ++ quote "test-direct".toList := by
    decide
  rw [hdirect, proxyUrl, List.append_cancel_left_eq]
  exact ⟨quote_injective, fun h => by rw [h]⟩

theorem postOnly_proxyUrl (id : Str) : postOnly (proxyUrl id) = decide (id ∈ reservedIds) := by
  obtain ⟨htoggle, htest⟩ := endsWith_special id
  rw [postOnly, htoggle, htest, Bool.eq_iff_iff]
  simp only [Bool.or_eq_true, decide_eq_true_eq, proxyUrl_eq_iff, reservedIds, List.mem_cons,
    List.not_mem_nil, or_false, or_assoc]

/-- The handlers of the requests for one proxy. -/
theorem matchHandler_proxyUrl {upper : Str → Str} (hupper : ∀ m ∈ ["GET", "POST", "DELETE"].map
    String.toList, upper m = m) {id : Str} (hid : id ≠ "test-direct".toList) :
    (Registration.runAll upper proxyRoutes).matchHandler upper "GET".toList (proxyUrl id) = some .get ∧
      (Registration.runAll upper proxyRoutes).matchHandler upper "POST".toList (proxyUrl id) =
        some .post := by
  have hget : upper "GET".toList = "GET".toList := hupper _ (by simp)
  have hpost : upper "POST".toList = "POST".toList := hupper _ (by simp)
  have hdelete : upper "DELETE".toList = "DELETE".toList := hupper _ (by simp)
  have hlist : "/api/custom-proxies".toList ≠ proxyUrl id := fun heq => by
    have hlength := congrArg List.length heq
    rw [proxyUrl, List.length_append] at hlength
    have hsize : proxyPath.length = 20 := by decide
    have hshort : "/api/custom-proxies".toList.length = 19 := by decide
    omega
  have hdirect : "/api/custom-proxies/test-direct".toList ≠ proxyUrl id := fun heq =>
    hid ((proxyUrl_eq_iff id).mp heq.symm)
  have hbegins : proxyPath.isPrefixOf (proxyUrl id) = true := by
    rw [List.isPrefixOf_iff_prefix, proxyUrl]
    exact List.prefix_append _ _
  have hexact : ∀ m, exactHandler upper proxyRoutes (m, proxyUrl id) = none := fun m => by
    simp [exactHandler, proxyRoutes, Registration.exactHandler]
    exact ⟨fun _ => hdirect, fun _ => hlist, fun _ => hlist⟩
  have hroutes : prefixRoutes upper proxyRoutes = [⟨"GET".toList, proxyPath, .get⟩,
      ⟨"POST".toList, proxyPath, .post⟩, ⟨"DELETE".toList, proxyPath, .delete⟩] := by
    simp only [prefixRoutes, proxyRoutes, List.flatMap_cons, List.flatMap_nil,
      Registration.prefixRoutes, hget, hpost, hdelete]
    rfl
  constructor
  · rw [matchHandler_registered, hexact, hroutes, hget]
    have hfits : ([⟨"GET".toList, proxyPath, .get⟩, ⟨"POST".toList, proxyPath, .post⟩,
        ⟨"DELETE".toList, proxyPath, .delete⟩] : List (Route ProxyHandler)).filter
          (Route.fits "GET".toList (proxyUrl id)) = [⟨"GET".toList, proxyPath, .get⟩] := by
      simp [Route.fits, hbegins]
    rw [hfits]
    rfl
  · rw [matchHandler_registered, hexact, hroutes, hpost]
    have hfits : ([⟨"GET".toList, proxyPath, .get⟩, ⟨"POST".toList, proxyPath, .post⟩,
        ⟨"DELETE".toList, proxyPath, .delete⟩] : List (Route ProxyHandler)).filter
          (Route.fits "POST".toList (proxyUrl id)) = [⟨"POST".toList, proxyPath, .post⟩] := by
      simp [Route.fits, hbegins]
    rw [hfits]
    rfl

/-! ### What is stored -/

/-- What holds of a stored proxy. -/
structure CustomProxy.Sound (p : CustomProxy) : Prop where
  name : Text.strip p.name = p.name
  host : Text.strip p.host = p.host
  port : integerColumn p.port = some p.port
  enabled : p.enabled = 0 ∨ p.enabled = 1

/-- Every stored proxy is sound. -/
def SoundTable (t : ProxyTable) : Prop := ∀ id p, t.get? id = some p → p.Sound

section

variable {w : Rendering} {lower : LowerCase} {upper : Str → Str} {loads : Bytes → Option Json}
  {t : ProxyTable} {data : JsonObject} {now : Time} {s s' : ProxyApi}

theorem SoundTable.insert (ht : SoundTable t) (id : Str) {p : CustomProxy} (hp : p.Sound) :
    SoundTable (t.insert id p) := by
  intro id' p' hget
  rw [Dict.get?_insert] at hget
  split at hget
  · cases hget
    exact hp
  · exact ht id' p' hget

theorem strip_strip (s : Str) : Text.strip (Text.strip s) = Text.strip s := by
  rw [Text.strip_eq_trim]
  exact trim_of_bare (bare_trim Text.isSpace s)

theorem integerColumn_idem {n m : ℤ} (h : integerColumn n = some m) : integerColumn m = some m := by
  have hn := h
  unfold integerColumn at hn
  split at hn
  · cases hn
    exact h
  · cases hn

theorem stripped_strip {v : Json} {s : Str} (h : stripped v = some s) : Text.strip s = s := by
  cases v with
  | str x =>
    cases h
    exact strip_strip _
  | _ => cases h

theorem soundTable_create {r : ProxyTable × List ProxyEvent × Option JsonObject} (ht : SoundTable t)
    (h : createCustomProxy w t data now = some r) : SoundTable r.1 := by
  unfold createCustomProxy at h
  split at h
  · next id name host _ hname hhost =>
    dsimp only at h
    split at h
    · cases h
      exact ht
    · split at h
      · next number _ _ _ _ hnumber _ _ _ _ =>
        split at h
        · cases h
          exact ht
        · cases h
          obtain ⟨n, -, hn⟩ := Option.bind_eq_some_iff.mp hnumber
          exact ht.insert id ⟨stripped_strip hname, stripped_strip hhost, integerColumn_idem hn, .inr rfl⟩
      · cases h
        exact ht
  · cases h

/-- A changed column is the old one, or comes from the request. -/
theorem changed_cases {α : Type} {key : String} {old new : α} {column : Json → Option α}
    (h : changed data key old column = some new) :
    new = old ∨ ∃ v, data.get? key = some v ∧ column v = some new := by
  unfold changed at h
  split at h
  · exact .inl (Option.some.inj h).symm
  · next v hv => exact .inr ⟨v, hv, h⟩

theorem sound_changedRow {p p' : CustomProxy} (hp : p.Sound) (h : changedRow w data now p = some p') :
    p'.Sound := by
  unfold changedRow at h
  split at h
  · next name _ host port _ _ _ enabled hname _ hhost hport _ _ _ henabled =>
    cases h
    have hstripped : ∀ {new : Str} {v : Json}, some (Text.strip (pyStr w v)) = some new →
        Text.strip new = new := fun heq => by
      rw [← Option.some.inj heq, strip_strip]
    refine ⟨?_, ?_, ?_, ?_⟩
    · rcases changed_cases hname with rfl | ⟨v, -, hv⟩
      · exact hp.name
      · exact hstripped hv
    · rcases changed_cases hhost with rfl | ⟨v, -, hv⟩
      · exact hp.host
      · exact hstripped hv
    · rcases changed_cases hport with rfl | ⟨v, -, hv⟩
      · exact hp.port
      · obtain ⟨n, -, hn⟩ := Option.bind_eq_some_iff.mp hv
        exact integerColumn_idem hn
    · rcases changed_cases henabled with rfl | ⟨v, -, hv⟩
      · exact hp.enabled
      · rw [← Option.some.inj hv]
        cases v.truthy
        · exact .inl rfl
        · exact .inr rfl
  · cases h

theorem soundTable_update (ht : SoundTable t) (id : Str) :
    SoundTable (updateCustomProxy w t id data now).1 := by
  unfold updateCustomProxy
  split
  · exact ht
  · next p hp =>
    split
    · exact ht
    · next p' hchanged => exact ht.insert id (sound_changedRow (ht id p hp) hchanged)

theorem soundTable_toggle (ht : SoundTable t) (id : Str) :
    SoundTable (toggleCustomProxy t id now).1 := by
  unfold toggleCustomProxy
  split
  · exact ht
  · next p hp =>
    have hsound := ht id p hp
    refine ht.insert id ⟨hsound.name, hsound.host, hsound.port, ?_⟩
    dsimp only
    split
    · exact .inl rfl
    · exact .inr rfl

theorem soundTable_check (ht : SoundTable t) (id : Str) (r : ProbeResult) :
    SoundTable (updateProxyCheck t id r now) := by
  intro id' p' hget
  rw [updateProxyCheck, Dict.get?_modify] at hget
  split at hget
  · obtain ⟨p, hp, rfl⟩ := Option.map_eq_some_iff.mp hget
    have hsound := ht id p hp
    exact ⟨hsound.name, hsound.host, hsound.port, hsound.enabled⟩
  · exact ht id' p' hget

theorem startTest_table (id : Str) : (s.startTest id).1.table = s.table := by
  unfold ProxyApi.startTest
  split
  · rfl
  · split <;> rfl

theorem startDirect_table : (s.startDirect data).1.table = s.table := by
  unfold ProxyApi.startDirect
  dsimp only
  split
  · split <;> rfl
  · rfl

theorem soundTable_handle (hs : SoundTable s.table) (method rawPath : Str) (body : Bytes) :
    SoundTable (s.handle w upper loads method rawPath body now).1.table := by
  unfold ProxyApi.handle
  dsimp only
  split
  · exact hs
  · exact hs
  · split
    · exact hs
    · next hcreate => exact soundTable_create hs hcreate
  · dsimp only
    rw [startDirect_table]
    exact hs
  · split
    · exact hs
    · split <;> exact hs
  · split
    · exact soundTable_toggle hs _
    · split
      · dsimp only
        rw [startTest_table]
        exact hs
      · exact soundTable_update hs _
  · split
    · exact hs
    · intro id p hget
      dsimp only at hget
      rw [Dict.get?_erase] at hget
      split at hget
      · cases hget
      · exact hs id p hget

theorem soundTable_step (hs : SoundTable s.table) (i : ProxyInput) :
    SoundTable (s.step w lower upper loads i).1.table := by
  cases i with
  | request method rawPath body now => exact soundTable_handle hs method rawPath body
  | finished i outcome now =>
    unfold ProxyApi.step ProxyApi.finish
    dsimp only
    split
    · exact hs
    · split
      · exact hs
      · exact soundTable_check hs _ _

variable (w lower upper loads) in
/-- Requests and ends of tests, in any order. -/
def proxyMachine : Machine ProxyApi ProxyInput :=
  ⟨fun s i => some (s.step w lower upper loads i).1⟩

/-- **Every stored proxy is sound**, after any requests. -/
theorem sound_of_reaches
    (hrun : (proxyMachine w lower upper loads).Reaches Machine.anyStep ⟨.empty, []⟩ s) :
    SoundTable s.table := by
  refine hrun.invariant (I := fun s => SoundTable s.table) ?_ ?_
  · intro id p hget
    cases hget
  · rintro s i s' hs hstep -
    obtain rfl : (s.step w lower upper loads i).1 = s' := Option.some.inj hstep
    exact soundTable_step hs i

/-! ### Unedited proxies -/

/-- What is listed, sent back, is what is stored. -/
theorem changedRow_proxyObject {p : CustomProxy} (hp : p.Sound) (id : Str) :
    changedRow w (proxyObject id (maskProxy p)) now p = some { p with updatedAt := now } := by
  have hpassword : (if Json.text (maskProxy p).password = .text maskText then some p.password
      else textColumn w (.text (maskProxy p).password)) = some p.password := by
    by_cases hnone : p.password = []
    · have hmask : Json.text (maskProxy p).password ≠ .text maskText := fun heq => by
        have heq := text_injective heq
        rw [maskProxy, if_pos hnone, hnone] at heq
        exact absurd heq (by decide)
      rw [if_neg hmask, maskProxy, if_pos hnone, textColumn_text]
    · rw [maskProxy, if_neg hnone, if_pos rfl]
  have henabled : (if (Json.int p.enabled).truthy then (1 : ℤ) else 0) = p.enabled := by
    rcases hp.enabled with h | h <;> rw [h] <;> rfl
  have hfields : maskProxy p = { p with password := (maskProxy p).password } := by
    rw [maskProxy]
    split <;> rfl
  rw [textColumn_text] at hpassword
  generalize (maskProxy p).password = shown at hpassword hfields
  rw [hfields]
  simp [changedRow, changed, proxyObject, JsonObject.ofList, JsonObject.get?, pyStr_text,
    textColumn_text, hp.name, hp.host, pyInt, hp.port, hpassword, henabled]

/-- **An unedited proxy stays as it is.** The path of a stored proxy gives what is listed for it,
unless its name is a reserved one; and when this is sent back, only the time of the change is
another one. -/
theorem edit_unchanged (hupper : ∀ m ∈ ["GET", "POST", "DELETE"].map String.toList, upper m = m)
    (hrun : (proxyMachine w lower upper loads).Reaches Machine.anyStep ⟨.empty, []⟩ s) {id : Str}
    {p : CustomProxy} (hp : s.table.get? id = some p) (hid : id ∉ reservedIds) (now : Time) :
    s.handle w upper loads "GET".toList (proxyUrl id) [] now =
        (s, [], some (.reply (.obj (proxyObject id (maskProxy p))) 200)) ∧
      ∀ body, jsonBody loads body = proxyObject id (maskProxy p) →
        s.handle w upper loads "POST".toList (proxyUrl id) body now =
          ({ s with table := s.table.insert id { p with updatedAt := now } }, [.updated id],
            some (changeAnswer (some (proxyObject id (maskProxy { p with updatedAt := now })))
              "not found" 404)) := by
  have hsound := sound_of_reaches hrun id p hp
  have hplain : id ≠ "toggle".toList ∧ id ≠ "test".toList ∧ id ≠ "test-direct".toList := by
    simpa [reservedIds] using hid
  obtain ⟨hget, hpost⟩ := matchHandler_proxyUrl hupper hplain.2.2
  constructor
  · have hshown : getCustomProxy s.table id = some (proxyObject id (maskProxy p)) := by
      rw [getCustomProxy, hp]
      rfl
    have hnot : postOnly (proxyUrl id) = false := by
      rw [postOnly_proxyUrl, decide_eq_false hid]
    simp only [ProxyApi.handle, beforeFirst_proxyUrl, hget, hnot, proxyId_proxyUrl, hshown,
      Bool.false_eq_true, if_false]
  · intro body hbody
    obtain ⟨htoggle, htest⟩ := endsWith_special id
    rw [decide_eq_false hplain.1] at htoggle
    rw [decide_eq_false hplain.2.1] at htest
    have hupdate : updateCustomProxy w s.table id (proxyObject id (maskProxy p)) now =
        (s.table.insert id { p with updatedAt := now }, [.updated id],
          some (proxyObject id (maskProxy { p with updatedAt := now }))) := by
      rw [updateCustomProxy, hp]
      dsimp only
      rw [changedRow_proxyObject hsound]
      dsimp only
      rw [getCustomProxy, Dict.get?_insert, if_pos rfl]
      rfl
    simp only [ProxyApi.handle, beforeFirst_proxyUrl, hpost, htoggle, htest, proxyId_proxyUrl, hbody,
      hupdate, Bool.false_eq_true, if_false]

end

/-- The body of a request for a new proxy. -/
def newProxyBody : Bytes :=
  ascii "\x7b\"id\": \"a\", \"name\": \"home\", \"host\": \"192.0.2.1\", \"port\": 1080, \"password\": \"red\"\x7d"

/-- The body of a request that sends back what is then listed. -/
def listedProxyBody : Bytes :=
  ascii "\x7b\"id\": \"a\", \"name\": \"home\", \"protocol\": \"socks5\", " ++
    ascii "\"host\": \"192.0.2.1\", \"port\": 1080, \"username\": \"\", \"password\": \"****\", " ++
    ascii "\"test_url\": \"\", \"last_check_at\": 0.0, \"last_check_status\": \"\", " ++
    ascii "\"last_check_latency\": -1, \"enabled\": 1, \"created_at\": 7.0, \"updated_at\": 7.0\x7d"

/-- The new proxy, as it is stored. -/
def newProxy : CustomProxy :=
  ⟨"home".toList, "socks5".toList, "192.0.2.1".toList, 1080, [], "red".toList, [], 0, [], -1, 1, 7, 7⟩

/-- The values of the two bodies. -/
def loadNewProxy (body : Bytes) : Option Json :=
  if body = newProxyBody then
    some (.obj (.ofList [("id", .str "a"), ("name", .str "home"), ("host", .str "192.0.2.1"),
      ("port", .int 1080), ("password", .str "red")]))
  else if body = listedProxyBody then some (.obj (proxyObject "a".toList (maskProxy newProxy)))
  else none

/-- The state after the first. -/
def oneProxy : ProxyApi :=
  (ProxyApi.step ⟨fun _ => [], fun _ => []⟩ asciiLowerCase id loadNewProxy ⟨.empty, []⟩
    (.request "POST".toList "/api/custom-proxies".toList newProxyBody 7)).1

theorem edit_unchanged_new :
    oneProxy.handle ⟨fun _ => [], fun _ => []⟩ id loadNewProxy "GET".toList
        (proxyUrl "a".toList) [] 8 =
      (oneProxy, [], some (.reply (.obj (proxyObject "a".toList (maskProxy newProxy))) 200)) ∧
    (oneProxy.handle ⟨fun _ => [], fun _ => []⟩ id loadNewProxy "POST".toList
        (proxyUrl "a".toList) listedProxyBody 8).1 =
      { oneProxy with
        table := oneProxy.table.insert "a".toList { newProxy with updatedAt := 8 } } := by
  have hstored : oneProxy.table.get? "a".toList = some newProxy := rfl
  have hbody : jsonBody loadNewProxy listedProxyBody = proxyObject "a".toList (maskProxy newProxy) := by
    have hother : listedProxyBody ≠ newProxyBody := fun h =>
      absurd (congrArg (List.take 30) h) (by decide)
    have hnonempty : listedProxyBody ≠ [] := by decide
    rw [jsonBody, if_neg hnonempty, loadNewProxy, if_neg hother, if_pos rfl]
  have hrun : (proxyMachine ⟨fun _ => [], fun _ => []⟩ asciiLowerCase id loadNewProxy).Reaches
      Machine.anyStep ⟨.empty, []⟩ oneProxy := .single rfl trivial
  have hedit := edit_unchanged (fun _ _ => rfl) hrun hstored (by decide) 8
  exact ⟨hedit.1, congrArg Prod.fst (hedit.2 listedProxyBody hbody)⟩

end HuntProxy.Web
