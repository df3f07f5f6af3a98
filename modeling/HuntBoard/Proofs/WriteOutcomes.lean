-- What becomes of a write that the server answers: the status decides first, then the number of the
-- change, and of a creation also the new entity. Only what comes through in this way is ever shown
-- as accepted.
import HuntBoard.Proofs.Desk
import HuntBoard.Proofs.Digits
import HuntBoard.Proofs.WholePatches
import HuntBoard.Server.Exchange

namespace HuntBoard

open Text

/-! ## Numbers of changes -/

namespace Text

/-- A text is a number in digits, perhaps behind a plus. -/
def Writes (l : List Char) (n : Nat) : Prop :=
  ∃ plus digits, l = plus ++ digits ∧ (plus = [] ∨ plus = ['+']) ∧ digits ≠ [] ∧
    (∀ c ∈ digits, c.isDigit) ∧ Nat.ofDigitChars 10 digits 0 = n

theorem isDigit_of_digit? {c : Char} {d : Nat} (h : digit? c = some d) : c.isDigit := by
  unfold digit? at h
  split at h
  · next hc =>
    rw [Char.isDigit, Bool.and_eq_true, decide_eq_true_iff, decide_eq_true_iff]
    exact hc
  · cases h

/-- Nothing but digits is read as a number, and as the number that they make. -/
theorem decimal?_eq_some_iff {l : List Char} {n : Nat} :
    decimal? l = some n ↔ l ≠ [] ∧ (∀ c ∈ l, c.isDigit) ∧ Nat.ofDigitChars 10 l 0 = n := by
  constructor
  · intro h
    have hne : l ≠ [] := by
      rintro rfl
      cases h
    have hdigits : ∀ c ∈ l, c.isDigit := by
      intro c hc
      rw [decimal?, if_neg (by simpa using hne)] at h
      obtain ⟨ds, hds, -⟩ := Option.map_eq_some_iff.1 h
      have hmem : digit? c ∈ ds.map some := of_mapM_eq_some hds ▸ List.mem_map_of_mem hc
      obtain ⟨d, -, hd⟩ := List.mem_map.1 hmem
      exact isDigit_of_digit? hd.symm
    rw [decimal?_of_isDigit hne hdigits] at h
    exact ⟨hne, hdigits, Option.some.inj h⟩
  · rintro ⟨hne, hdigits, rfl⟩
    exact decimal?_of_isDigit hne hdigits

end Text

theorem uint64?_eq_some_iff {n : Nat} {v : UInt64} : uint64? n = some v ↔ v.toNat = n := by
  unfold uint64?
  split
  · next h =>
    rw [Option.some.injEq, ← UInt64.toNat_inj, UInt64.toNat_ofNat', Nat.mod_eq_of_lt h, eq_comm]
  · next h =>
    have hlt := v.toNat_lt
    simp only [UInt64.size] at h
    constructor
    · simp
    · omega

def Entity.entityType : Entity → EntityType
  | .puzzle _ => .puzzle
  | .round _ => .round

namespace HttpReply

/-- The text behind the plus of a number is what is left of it to read. -/
theorem decimal?_unsigned {l : List Char} {n : Nat} : decimal? (unsigned l) = some n ↔ Writes l n := by
  rw [decimal?_eq_some_iff]
  unfold unsigned Writes
  split
  · next rest =>
    constructor
    · intro h
      exact ⟨['+'], rest, rfl, Or.inr rfl, h⟩
    · rintro ⟨plus, digits, hl, rfl | rfl, hne, hdigits, hn⟩
      · have hplus : '+' ∈ digits := by
          rw [← show '+' :: rest = digits from hl]
          exact List.mem_cons_self
        exact absurd (hdigits '+' hplus) (by decide)
      · obtain rfl : rest = digits := by simpa using hl
        exact ⟨hne, hdigits, hn⟩
  · next hfirst =>
    constructor
    · intro h
      exact ⟨[], l, rfl, Or.inl rfl, h⟩
    · rintro ⟨plus, digits, rfl, rfl | rfl, h⟩
      · exact h
      · exact absurd rfl (hfirst digits)

/-- The number of a change is read from its header and from nothing else, in full or not at all. -/
theorem readChangeId_eq_ok {header : Option String} {c : ChangeId} :
    readChangeId header = .ok c ↔
      ∃ raw, header = some raw ∧ Writes (trimBlanks raw.toList) c.number := by
  cases header with
  | none => simp [readChangeId]
  | some raw =>
    simp only [readChangeId, Option.some.injEq, exists_eq_left', ChangeId.number]
    constructor
    · intro h
      split at h
      · next v hv =>
        obtain ⟨n, hn, hvn⟩ := Option.bind_eq_some_iff.1 hv
        obtain rfl := Except.ok.inj h
        rw [uint64?_eq_some_iff] at hvn
        exact hvn ▸ decimal?_unsigned.1 hn
      · cases h
    · intro h
      rw [decimal?_unsigned.2 h, Option.bind_some, uint64?_eq_some_iff.2 rfl]

/-! ## Answers to a write -/

theorem accepted_eq_ok {r : HttpReply} : r.accepted = .ok () ↔ 200 ≤ r.status ∧ r.status < 300 := by
  unfold accepted
  split
  · next h => simp [h]
  · split <;> simp_all

/-- An answer says that the server made a change of a write. -/
structure Confirms (request : WriteRequest) (r : HttpReply) (c : ChangeId) : Prop where
  status : 200 ≤ r.status ∧ r.status < 300
  number : ∃ raw, r.changeId = some raw ∧ Writes (trimBlanks raw.toList) c.number
  /-- A new entity comes with the answer. -/
  entity : request.isCreate → (readEntity? request.entityType r.body).isSome

variable {request : WriteRequest} {r : HttpReply} {reply : WriteReply}

theorem post_of_isCreate (h : request.isCreate) : request.method = .post := by
  cases request <;> first | rfl | cases h

/-- Of an answer with a number the body is looked into, unless to a deletion. -/
theorem write_of_number {c : ChangeId} (haccepted : r.accepted = .ok ())
    (hnumber : readChangeId r.changeId = .ok c) :
    write request r =
      if request.method = .delete then .ok { changeId := c }
      else if (readEntity? request.entityType r.body).isNone && request.isCreate then .error .badBody
      else .ok { changeId := c, entity := readEntity? request.entityType r.body } := by
  rw [write, haccepted, hnumber]
  change (if request.method = .delete then _ else _) = _
  split
  · rfl
  · cases readEntity? request.entityType r.body with
    | some e => rfl
    | none => cases request.isCreate <;> rfl

/-- What comes through is what the answer confirms; with a deletion it is not looked into. -/
theorem write_eq_ok :
    write request r = .ok reply ↔ Confirms request r reply.changeId ∧
      reply.entity = if request.method = .delete then none else readEntity? request.entityType r.body := by
  obtain ⟨c, entity⟩ := reply
  cases haccepted : r.accepted with
  | error f =>
    have hfail : ¬ (200 ≤ r.status ∧ r.status < 300) := fun h => by
      simp [accepted_eq_ok.2 h] at haccepted
    have hwrite : write request r = .error f := by
      rw [write, haccepted]
      rfl
    rw [hwrite]
    exact ⟨nofun, fun h => absurd h.1.status hfail⟩
  | ok _ =>
    cases hnumber : readChangeId r.changeId with
    | error f =>
      have hwrite : write request r = .error f := by
        rw [write, haccepted, hnumber]
        rfl
      rw [hwrite]
      refine ⟨nofun, fun h => ?_⟩
      rw [readChangeId_eq_ok.2 h.1.number] at hnumber
      cases hnumber
    | ok c' =>
      have hconfirms : Confirms request r c ↔
          c' = c ∧ (request.isCreate → (readEntity? request.entityType r.body).isSome) := by
        constructor
        · intro h
          exact ⟨Except.ok.inj (hnumber.symm.trans (readChangeId_eq_ok.2 h.number)), h.entity⟩
        · rintro ⟨rfl, h⟩
          exact ⟨accepted_eq_ok.1 haccepted, readChangeId_eq_ok.1 hnumber, h⟩
      rw [hconfirms]
      by_cases hdelete : request.method = .delete
      · have hcreate : ¬ request.isCreate := fun h => by simp [post_of_isCreate h] at hdelete
        simp [write_of_number haccepted hnumber, hdelete, hcreate, @eq_comm _ entity]
      · cases hread : readEntity? request.entityType r.body with
        | some e => simp [write_of_number haccepted hnumber, hdelete, hread, @eq_comm _ entity]
        | none =>
          by_cases hcreate : request.isCreate <;>
            simp [write_of_number haccepted hnumber, hdelete, hcreate, hread, @eq_comm _ entity]

/-- Anything but success says so, whatever else the answer holds. -/
theorem write_of_not_success (h : ¬ (200 ≤ r.status ∧ r.status < 300)) :
    write request r = .error (if r.status = 401 then .unauthorized else .status r.status r.body) := by
  have haccepted : r.accepted =
      .error (if r.status = 401 then .unauthorized else .status r.status r.body) := by
    by_cases hstatus : r.status = 401 <;> simp [accepted, hstatus, h]
  rw [write, haccepted]
  rfl

/-- The value of the change id header, as it was sent. -/
def sentNumber? (headers : List (String × String)) : Option String :=
  (headers.find? fun h => String.ofList (h.1.toList.map Char.toLower) = changeIdHeader).map (·.2)

/-- The value of a header without the blanks at its ends. -/
def headerValue (value : String) : List Char :=
  ((value.toList.dropWhile isHeaderBlank).reverse.dropWhile isHeaderBlank).reverse

/-- A header that is not plain text counts as empty. -/
theorem changeId_ofParts_of_hidden {headers : List (String × String)} {value : String}
    (hsent : sentNumber? headers = some value) (hhidden : ¬ (headerValue value).all isVisible)
    (status : Nat) (body : String) : (ofParts status headers body).changeId = some "" := by
  obtain ⟨h, hfind, rfl⟩ := Option.map_eq_some_iff.1 hsent
  rw [ofParts, hfind, Option.map_some]
  exact congrArg some (if_neg hhidden)

end HttpReply

/-! ## What a tab shows as accepted -/

/-- All that a tab is told to be accepted came through from the server. -/
def Server.Answers (s : Server) (i : TabInput) : Prop :=
  ∀ w reply, i = .settled w (.ok reply) → ∃ http, s.write http w.request = .ok reply

namespace Tab

variable {t : Tab} {i : TabInput} {is : List TabInput} {c : ChangeId} {e : Edit}

theorem run_concat (t : Tab) (is : List TabInput) (i : TabInput) :
    (t.run (is ++ [i])).1 = ((t.run is).1.step i).1 := by
  induction is generalizing t with
  | nil => rfl
  | cons j is ih => exact ih (t.step j).1

/-- A change from the stream may take away what is shown as accepted, and adds nothing to it. -/
theorem get?_sync {k : WriteKey} {ev : SyncEvent} (h : (t.sync ev).1.overlay.get? k = some e) :
    t.overlay.get? k = some e := by
  have hoverlay : (t.sync ev).1.overlay = (t.holding.sync ev).overlay :=
    congrArg Holding.overlay (t.sync_holding ev)
  rw [hoverlay, Holding.sync] at h
  split at h
  all_goals simp_all [Overlay.get?_erase, Overlay.get?_pruneThrough, Tab.holding]

theorem overlay_setConnection (t : Tab) (link : LinkState) : (t.setConnection link).1.overlay = t.overlay :=
  congrArg Holding.overlay (t.setConnection_holding link)

/-- A write may add to what is pending, and to nothing else. -/
theorem get?_confirmed_write (t : Tab) (request : WriteRequest) (optimistic : Bool) :
    (t.write request optimistic).1.overlay.get? (.confirmed c) = t.overlay.get? (.confirmed c) := by
  rcases t.write_cases request optimistic with ⟨e', -, -, hheld, -⟩ | ⟨-, hheld, -⟩
  · have hoverlay : (t.write request optimistic).1.overlay = (t.overlay.addPending e').1 :=
      congrArg Holding.overlay hheld
    rw [hoverlay, Overlay.get?_addPending_confirmed]
  · have hoverlay : (t.write request optimistic).1.overlay = t.overlay := congrArg Holding.overlay hheld
    rw [hoverlay]

/-- The outcome of a write adds the edit that its answer makes, if that is above what the tab holds. -/
theorem get?_confirmed_settled {w : OpenWrite} {outcome : Except WriteFault WriteReply}
    (h : (t.settled w outcome).1.overlay.get? (.confirmed c) = some e) :
    t.overlay.get? (.confirmed c) = some e ∨
      ∃ reply, outcome = .ok reply ∧ reply.changeId = c ∧ ¬ c ≤ t.replica.watermark ∧
        reply.edit? w.request = some e := by
  have hoverlay : (t.settled w outcome).1.overlay = (t.holding.settle ⟨w, outcome⟩).overlay :=
    congrArg Holding.overlay (t.settled_holding ⟨w, outcome⟩)
  have hkept : (t.overlay.forget w.pending).get? (.confirmed c) = some e →
      t.overlay.get? (.confirmed c) = some e := by
    rw [Overlay.get?_forget]
    split <;> simp
  rw [hoverlay, Holding.settle] at h
  split at h
  · next c' e' hc =>
    rw [Overlay.get?_confirm] at h
    split at h
    · next hnew =>
      obtain ⟨hkey, habove⟩ := hnew
      cases outcome with
      | error f => cases hc
      | ok reply =>
        obtain ⟨e'', hedit, hpair⟩ := Option.map_eq_some_iff.1 (show Option.map _ _ = _ from hc)
        obtain ⟨rfl, rfl⟩ := Prod.mk.inj hpair
        obtain rfl := WriteKey.confirmed.inj hkey
        exact Or.inr ⟨reply, rfl, rfl, habove, hedit.trans h⟩
    · exact Or.inl (hkept h)
  · exact Or.inl (hkept h)

/-- What is shown as accepted after an input was so before, or an outcome made it so: one that
came as a change above those that the tab holds. -/
theorem get?_confirmed_step (h : (t.step i).1.overlay.get? (.confirmed c) = some e) :
    t.overlay.get? (.confirmed c) = some e ∨
      ∃ w reply, i = .settled w (.ok reply) ∧ reply.changeId = c ∧ ¬ c ≤ t.replica.watermark ∧
        reply.edit? w.request = some e := by
  cases i with
  | message m =>
    left
    cases m with
    | sync ev => exact get?_sync h
    | status link => rwa [← t.overlay_setConnection link]
    | settings s => exact h
    | presence p => exact h
    | users u => exact h
  | hubLost => exact Or.inl (overlay_setConnection { t with attached := false } .disconnected ▸ h)
  | write request optimistic => exact Or.inl (t.get?_confirmed_write request optimistic ▸ h)
  | settled w outcome =>
    refine (get?_confirmed_settled h).imp_right ?_
    rintro ⟨reply, rfl, hreply⟩
    exact ⟨w, reply, rfl, hreply⟩
  | activity subject active => exact Or.inl h

/-- After many inputs, each edit that is shown as accepted was so before, or goes back to the
outcome of a write. -/
theorem get?_confirmed_run (h : (t.run is).1.overlay.get? (.confirmed c) = some e) :
    t.overlay.get? (.confirmed c) = some e ∨
      ∃ before w reply after, is = before ++ .settled w (.ok reply) :: after ∧ reply.changeId = c ∧
        ¬ c ≤ (t.run before).1.replica.watermark ∧ reply.edit? w.request = some e := by
  induction is using List.reverseRecOn with
  | nil => exact Or.inl h
  | append_singleton is i ih =>
    rw [run_concat] at h
    rcases get?_confirmed_step h with hold | ⟨w, reply, rfl, hc, habove, hedit⟩
    · refine (ih hold).imp_right ?_
      rintro ⟨before, w, reply, after, rfl, hreply⟩
      exact ⟨before, w, reply, after ++ [i], by simp, hreply⟩
    · exact Or.inr ⟨is, w, reply, [], rfl, hc, habove, hedit⟩

end Tab

/-! ## The law -/

/-- The edit that an answer makes of a write: a creation is as the answer says, all else is as it
was asked for. -/
def HttpReply.edit? (request : WriteRequest) (r : HttpReply) : Option Edit :=
  if request.isCreate then (readEntity? request.entityType r.body).map Entity.wholePatch else request.edit?

namespace Server

variable {s : Server} {http : Transport} {request : WriteRequest} {r : HttpReply} {reply : WriteReply}

theorem write_of_reply {u : Url} (hu : s.endpoint request.path = .ok u)
    (hr : http ⟨request.method, u, s.cookie, request.form⟩ = some r) :
    s.write http request = HttpReply.write request r := by
  have hexchange : s.exchange http request.method request.path request.form = .ok r := by
    simp [exchange, hu, hr, bind, Except.bind]
  rw [write, hexchange]
  rfl

/-- An entity is read as one of the type that is asked for. -/
theorem entityType_of_readEntity? {t : EntityType} {body : String} {v : Entity}
    (h : HttpReply.readEntity? t body = some v) : v.entityType = t := by
  obtain ⟨j, -, hj⟩ := of_bind_eq_some h
  cases t <;>
  · obtain ⟨_, -, rfl⟩ := Option.map_eq_some_iff.1 hj
    rfl

theorem exists_reply_of_write (h : s.write http request = .ok reply) :
    ∃ r, HttpReply.write request r = .ok reply := by
  unfold write at h
  cases hr : s.exchange http request.method request.path request.form with
  | ok r =>
    rw [hr] at h
    exact ⟨r, h⟩
  | error f =>
    rw [hr] at h
    cases h

/-- What a tab makes of a write that came through is what the answer makes of it. -/
theorem edit?_of_write (h : HttpReply.write request r = .ok reply) :
    reply.edit? request = r.edit? request := by
  obtain ⟨hconfirms, hentity⟩ := HttpReply.write_eq_ok.1 h
  unfold WriteReply.edit? HttpReply.edit?
  rw [hentity]
  cases request with
  | createPuzzle p =>
    obtain ⟨v, hv⟩ := Option.isSome_iff_exists.1 (hconfirms.entity rfl)
    cases v with
    | puzzle p' => simp [WriteRequest.isCreate, WriteRequest.method, hv, Entity.wholePatch]
    | round q => cases entityType_of_readEntity? hv
  | createRound q =>
    obtain ⟨v, hv⟩ := Option.isSome_iff_exists.1 (hconfirms.entity rfl)
    cases v with
    | puzzle p => cases entityType_of_readEntity? hv
    | round q' => simp [WriteRequest.isCreate, WriteRequest.method, hv, Entity.wholePatch]
  | _ => rfl

/-- A write comes through just if the answer has a status of success, a number of 64 bits for the
change, which is that of the reply, and with a creation the new entity. Other statuses say so,
whatever else the answer holds, and a header of hidden text is none that can be read. A tab comes
to show an edit as accepted only by an answer that makes a change of a write, above those that the
tab holds, and the edit is what that answer makes of the write. -/
theorem a_write_comes_through_as_its_answer_says (s : Server) :
    (∀ (http : Transport) (request : WriteRequest) (u : Url) (r : HttpReply),
      s.endpoint request.path = .ok u → http ⟨request.method, u, s.cookie, request.form⟩ = some r →
        let outcome := s.write http request
        (∀ c, (∃ reply, outcome = .ok reply ∧ reply.changeId = c) ↔ r.Confirms request c) ∧
        (r.status = 401 → outcome = .error .unauthorized) ∧
        (r.status ≠ 401 → ¬ (200 ≤ r.status ∧ r.status < 300) →
          outcome = .error (.status r.status r.body)) ∧
        ∀ status headers value body, r = .ofParts status headers body →
          HttpReply.sentNumber? headers = some value →
          ¬ (HttpReply.headerValue value).all HttpReply.isVisible →
          200 ≤ r.status ∧ r.status < 300 → outcome = .error (.invalidChangeId "")) ∧
    ∀ (t : Tab) (is : List TabInput) (c : ChangeId) (e : Edit), (∀ i ∈ is, s.Answers i) →
      (t.run is).1.overlay.get? (.confirmed c) = some e →
        t.overlay.get? (.confirmed c) = some e ∨
          ∃ before w reply after r, is = before ++ .settled w (.ok reply) :: after ∧
            ¬ c ≤ (t.run before).1.replica.watermark ∧ HttpReply.Confirms w.request r c ∧
            r.edit? w.request = some e := by
  constructor
  · intro http request u r hu hr outcome
    have hwrite : outcome = r.write request := write_of_reply hu hr
    rw [hwrite]
    refine ⟨fun c => ⟨?_, fun hconfirms => ?_⟩, fun hstatus => ?_, fun hstatus hfail => ?_, ?_⟩
    · rintro ⟨reply, hok, rfl⟩
      exact (HttpReply.write_eq_ok.1 hok).1
    · exact ⟨⟨c, _⟩, HttpReply.write_eq_ok.2 ⟨hconfirms, rfl⟩, rfl⟩
    · rw [HttpReply.write_of_not_success (by omega), if_pos hstatus]
    · rw [HttpReply.write_of_not_success hfail, if_neg hstatus]
    · rintro status headers value body rfl hsent hhidden hsuccess
      rw [HttpReply.write, HttpReply.accepted_eq_ok.2 hsuccess,
        HttpReply.changeId_ofParts_of_hidden hsent hhidden]
      rfl
  · intro t is c e hanswers h
    rcases Tab.get?_confirmed_run h with hold | ⟨before, w, reply, after, rfl, rfl, habove, hedit⟩
    · exact Or.inl hold
    · obtain ⟨http, hwrite⟩ := hanswers _ (by simp) w reply rfl
      obtain ⟨r, hr⟩ := exists_reply_of_write hwrite
      exact Or.inr ⟨before, w, reply, after, r, rfl, habove, (HttpReply.write_eq_ok.1 hr).1,
        (edit?_of_write hr).symm.trans hedit⟩

def harbour : Server where
  base := { scheme := .http, authority := some { host := .name "h" }, path := .segments [""] }

def makeWhale : WriteRequest := .createPuzzle { name := "Whale", round := ⟨1⟩, puzzleUrl := "" }

/-- The answer that the whale was made, with blanks around the number and a plus in front. -/
def whaleMade : HttpReply :=
  .ofParts 201 [("X-Change-ID", " +7 ")] "\x7b\"id\":3,\"name\":\"Whale\",\"round\":1\x7d"

def whaleReply : WriteReply :=
  { changeId := ⟨7⟩, entity := some (.puzzle { id := ⟨3⟩, name := "Whale", round := ⟨1⟩ }) }

theorem whaleMade_confirms : whaleMade.Confirms makeWhale ⟨7⟩ :=
  ⟨by decide, ⟨_, rfl, ['+'], ['7'], rfl, Or.inr rfl, by simp, by simp, rfl⟩, fun _ => by decide +kernel⟩

theorem the_new_whale_comes_through_and_is_shown :
    (∃ reply, harbour.write (fun _ => some whaleMade) makeWhale = .ok reply ∧ reply.changeId = ⟨7⟩) ∧
      ∃ r, HttpReply.Confirms makeWhale r ⟨7⟩ ∧
        ((Tab.ofSnapshot { changeId := ⟨4⟩ }).run
          [.settled ⟨makeWhale, none⟩ (.ok whaleReply)]).1.overlay.get? (.confirmed ⟨7⟩) =
            r.edit? makeWhale := by
  obtain ⟨hwrites, htabs⟩ := a_write_comes_through_as_its_answer_says harbour
  have hurl : harbour.endpoint makeWhale.path =
      .ok { harbour.base with path := .segments ["puzzles"] } := by decide +kernel
  obtain ⟨hmade, -⟩ := hwrites (fun _ => some whaleMade) makeWhale _ whaleMade hurl rfl
  refine ⟨(hmade ⟨7⟩).2 whaleMade_confirms, ?_⟩
  have hanswers : harbour.Answers (.settled ⟨makeWhale, none⟩ (.ok whaleReply)) := by
    intro w reply heq
    obtain ⟨rfl, hreply⟩ := TabInput.settled.inj heq
    obtain rfl := Except.ok.inj hreply
    refine ⟨fun _ => some whaleMade, ?_⟩
    rw [write_of_reply hurl rfl]
    exact HttpReply.write_eq_ok.2 ⟨whaleMade_confirms, by decide +kernel⟩
  rcases htabs (Tab.ofSnapshot { changeId := ⟨4⟩ }) [.settled ⟨makeWhale, none⟩ (.ok whaleReply)] ⟨7⟩ _
    (by simpa using hanswers) (by rfl) with hold | ⟨before, w, reply, after, r, heq, -, hr, hedit⟩
  · cases hold
  · cases before with
    | nil =>
      obtain ⟨hfirst, -⟩ := List.cons.inj heq
      obtain ⟨rfl, -⟩ := TabInput.settled.inj hfirst
      exact ⟨r, hr, hedit.symm⟩
    | cons i before => simp at heq

end Server

end HuntBoard
