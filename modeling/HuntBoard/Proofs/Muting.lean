-- One flag in three places: in the file, in what all switches of one opening share, and with those
-- who watch. A switch tells what was set last, a failure leaves all three places alone, and what
-- was written last is read when the file is opened again.
import HuntBoard.Mute
import Mathlib.Data.List.Induction

namespace HuntBoard

/-! ## The file -/

namespace FilePlace

/-- The loop over the bytes puts those that are left behind those it has taken. -/
theorem bytes_loop (b : ByteArray) (i : Nat) (taken : List UInt8) :
    ByteArray.toList.loop b i taken = taken.reverse ++ b.data.toList.drop i := by
  induction i, taken using ByteArray.toList.loop.induct b with
  | case1 i taken hlt ih =>
    have hi : i < b.data.toList.length := by simpa using hlt
    have hnext : b.get! i = b.data.toList[i] := by
      rw [Array.getElem_toList]
      exact getElem!_pos b.data i (by simpa using hlt)
    rw [ByteArray.toList.loop, if_pos hlt, ih, List.drop_eq_getElem_cons hi, hnext]
    simp
  | case2 i taken hge =>
    have hend : b.data.toList.length ≤ i := by simpa using hge
    rw [ByteArray.toList.loop, if_neg hge, List.drop_eq_nil_of_le hend, List.append_nil]

/-- A file can be written here. -/
def isWritable : FilePlace → Bool
  | missing | file _ => true
  | directory | underFile => false

theorem write?_isSome (p : FilePlace) (s : String) : (p.write? s).isSome = p.isWritable := by
  cases p <;> rfl

/-- A text that was written is there to be read. -/
theorem read?_write? {p q : FilePlace} {s : String} (h : p.write? s = some q) :
    q.read? = some (some s) := by
  have hbytes : (⟨s.toUTF8.toList.toArray⟩ : ByteArray) = s.toByteArray := by
    unfold ByteArray.toList
    rw [bytes_loop]
    simp
  have hfile : q = file s.toUTF8.toList := by
    cases p with
    | missing => exact (Option.some.inj h).symm
    | file bytes => exact (Option.some.inj h).symm
    | directory => cases h
    | underFile => cases h
  rw [hfile, read?, hbytes, String.fromUTF8?, dif_pos s.isValidUTF8]
  rfl

end FilePlace

namespace Mute

theorem ofText_text (muted : Bool) : ofText (text muted) = muted := by
  cases muted <;> decide

theorem open?_of_read? {p : FilePlace} {muted : Bool} (h : p.read? = some (some (text muted))) :
    open? p = some { muted } := by
  simp [open?, h, ofText_text]

/-! ## Switches and watchers -/

/-- All there is around one place of the file: the flags, each from one opening; the switches, each
with the number of its flag; and those who watch, each with the number of the flag they watch. -/
structure Household where
  place : FilePlace
  flags : List Mute := []
  switches : List Nat := []
  watchers : List (Nat × MuteWatcher) := []

inductive Act where
  /-- Open the file, for a flag with its first switch. -/
  | openFile
  /-- Make one more switch for the flag of a switch. -/
  | clone (switch : Nat)
  | watch (switch : Nat)
  | look (watcher : Nat)
  | set (switch : Nat) (muted : Bool)
  | toggle (switch : Nat)
  /-- Somebody else puts something at the place of the file, or takes it away. -/
  | rewrite (place : FilePlace)
  deriving DecidableEq

/-- What came of an act. -/
inductive Note where
  | opened (flag : Nat) (muted : Bool)
  | set (flag : Nat) (muted : Bool)
  | failed
  | rewritten
  /-- Neither a flag nor the file had a part in it. -/
  | nothing
  deriving DecidableEq

namespace Note

/-- The value that a flag was opened with or set to. -/
def value? (flag : Nat) : Note → Option Bool
  | .opened n muted | .set n muted => if n = flag then some muted else none
  | .failed | .rewritten | .nothing => none

/-- The file was written. -/
def touches : Note → Bool
  | .set _ _ | .rewritten => true
  | .opened _ _ | .failed | .nothing => false

/-- The values that a flag had, from its opening on. -/
def values (flag : Nat) (notes : List Note) : List Bool := notes.filterMap (value? flag)

/-- What became of the file last. -/
def lastTouch? (notes : List Note) : Option Note := (notes.filter touches).getLast?

end Note

namespace Household

/-- The flag of a switch, with its number. -/
def flag? (h : Household) (switch : Nat) : Option (Nat × Mute) := do
  let n ← h.switches[switch]?
  let m ← h.flags[n]?
  some (n, m)

/-- What a switch tells. -/
def get? (h : Household) (switch : Nat) : Option Bool := (h.flag? switch).map (·.2.muted)

/-- Open the file, for a new flag and its first switch. -/
def openFile (h : Household) : Household × Note :=
  match open? h.place with
  | some m =>
    ({ h with flags := h.flags ++ [m], switches := h.switches ++ [h.flags.length] },
      .opened h.flags.length m.muted)
  | none => (h, .failed)

def clone (h : Household) (switch : Nat) : Household :=
  match h.flag? switch with
  | some (n, _) => { h with switches := h.switches ++ [n] }
  | none => h

def watch (h : Household) (switch : Nat) : Household :=
  match h.flag? switch with
  | some (n, m) => { h with watchers := h.watchers ++ [(n, m.watch)] }
  | none => h

/-- A watcher looks at its flag, and has seen all that there was of it. -/
def look (h : Household) (watcher : Nat) : Household :=
  match h.watchers[watcher]? with
  | some (n, _) =>
    match h.flags[n]? with
    | some m => { h with watchers := h.watchers.set watcher (n, m.watch) }
    | none => h
  | none => h

/-- Change the flag of a switch together with the file. -/
def change (h : Household) (switch : Nat) (attempt : Mute → FilePlace → Option (Mute × FilePlace)) :
    Household × Note :=
  match h.flag? switch with
  | some (n, m) =>
    match attempt m h.place with
    | some (m, place) => ({ h with place, flags := h.flags.set n m }, .set n m.muted)
    | none => (h, .failed)
  | none => (h, .nothing)

def step (h : Household) : Act → Household × Note
  | .openFile => h.openFile
  | .clone switch => (h.clone switch, .nothing)
  | .watch switch => (h.watch switch, .nothing)
  | .look watcher => (h.look watcher, .nothing)
  | .set switch muted => h.change switch fun m p => m.set? p muted
  | .toggle switch => h.change switch toggle?
  | .rewrite place => ({ h with place }, .rewritten)

/-- Acts in order around a place where nothing was opened yet, and what came of them. -/
def run (place : FilePlace) (acts : List Act) : Household × List Note :=
  acts.foldl (fun o act => ((o.1.step act).1, o.2 ++ [(o.1.step act).2])) ({ place }, [])

theorem run_concat (place : FilePlace) (acts : List Act) (act : Act) :
    run place (acts ++ [act]) =
      (((run place acts).1.step act).1, (run place acts).2 ++ [((run place acts).1.step act).2]) := by
  simp [run, List.foldl_append]

/-! ## What one act can do -/

/-- A household after a flag was set and written. -/
def written (h : Household) (n : Nat) (m : Mute) (muted : Bool) (place : FilePlace) : Household :=
  { h with place, flags := h.flags.set n { muted, version := m.version + 1 } }

theorem getElem?_written {h : Household} {n : Nat} {m : Mute} (hm : h.flags[n]? = some m)
    (muted : Bool) (place : FilePlace) :
    (h.written n m muted place).flags[n]? = some { muted, version := m.version + 1 } :=
  List.getElem?_set_self (List.getElem?_eq_some_iff.1 hm).1

/-- All that can come of an act. -/
inductive Took (h : Household) : Household × Note → Prop
  | opened {m : Mute} (hm : open? h.place = some m) :
    Took h ({ h with flags := h.flags ++ [m], switches := h.switches ++ [h.flags.length] },
      .opened h.flags.length m.muted)
  | set {n : Nat} {m : Mute} {muted : Bool} {place : FilePlace} (hm : h.flags[n]? = some m)
    (hplace : h.place.write? (text muted) = some place) :
    Took h (h.written n m muted place, .set n muted)
  | failed : Took h (h, .failed)
  | rewritten (place : FilePlace) : Took h ({ h with place }, .rewritten)
  | cloned {n : Nat} (hn : n ∈ h.switches) :
    Took h ({ h with switches := h.switches ++ [n] }, .nothing)
  | watching {n : Nat} {m : Mute} {watchers : List (Nat × MuteWatcher)} (hm : h.flags[n]? = some m)
    (hwatchers : ∀ w ∈ watchers, w ∈ h.watchers ∨ w = (n, m.watch)) :
    Took h ({ h with watchers }, .nothing)
  | nothing : Took h (h, .nothing)

variable {h : Household} {switch n : Nat} {m : Mute}

theorem flag?_eq_some (hflag : h.flag? switch = some (n, m)) :
    h.switches[switch]? = some n ∧ h.flags[n]? = some m := by
  unfold flag? at hflag
  cases hn : h.switches[switch]? with
  | none => simp [hn] at hflag
  | some k =>
    cases hm : h.flags[k]? with
    | none => simp [hn, hm] at hflag
    | some f =>
      simp only [hn, hm, Option.bind_eq_bind, Option.bind_some, Option.some.injEq,
        Prod.mk.injEq] at hflag
      obtain ⟨rfl, rfl⟩ := hflag
      exact ⟨rfl, hm⟩

/-- To change a flag is to write a value that depends on the flag alone. -/
theorem change_took (value : Mute → Bool) (h : Household) (switch : Nat) :
    Took h (h.change switch fun m p => m.set? p (value m)) := by
  unfold change
  split
  · next n m hflag =>
    obtain ⟨-, hm⟩ := flag?_eq_some hflag
    dsimp only [set?]
    cases hplace : h.place.write? (text (value m)) with
    | none => exact .failed
    | some place => exact .set hm hplace
  · exact .nothing

theorem openFile_took (h : Household) : Took h h.openFile := by
  unfold openFile
  split
  · next m hm => exact .opened hm
  · exact .failed

theorem clone_took (h : Household) (switch : Nat) : Took h (h.clone switch, .nothing) := by
  unfold clone
  split
  · next n m hflag => exact .cloned (List.mem_of_getElem? (flag?_eq_some hflag).1)
  · exact .nothing

theorem watch_took (h : Household) (switch : Nat) : Took h (h.watch switch, .nothing) := by
  unfold watch
  split
  · next n m hflag =>
    refine .watching (flag?_eq_some hflag).2 fun w hw => ?_
    simpa using hw
  · exact .nothing

theorem look_took (h : Household) (watcher : Nat) : Took h (h.look watcher, .nothing) := by
  unfold look
  split
  · split
    · next m hm => exact .watching hm fun w hw => List.mem_or_eq_of_mem_set hw
    · exact .nothing
  · exact .nothing

theorem step_took (h : Household) (act : Act) : Took h (h.step act) := by
  cases act with
  | openFile => exact openFile_took h
  | clone switch => exact clone_took h switch
  | watch switch => exact watch_took h switch
  | look watcher => exact look_took h watcher
  | set switch muted => exact change_took (fun _ => muted) h switch
  | toggle switch => exact change_took (fun m => !m.muted) h switch
  | rewrite place => exact .rewritten place

/-! ## What every act keeps -/

/-- How a household stands to what was noted: its switches and watchers have flags, no watcher has
seen more of a flag than there was, each flag has the value noted last, and the file has the text
of the flag that was written last, unless somebody else wrote it since. -/
structure Sound (h : Household) (notes : List Note) : Prop where
  switches : ∀ n ∈ h.switches, n < h.flags.length
  watchers : ∀ w ∈ h.watchers, ∃ m, h.flags[w.1]? = some m ∧ w.2.version ≤ m.version
  value : ∀ n m, h.flags[n]? = some m → (Note.values n notes).getLast? = some m.muted
  file : ∀ n muted, Note.lastTouch? notes = some (.set n muted) →
    h.place.read? = some (some (text muted))

section

variable {notes : List Note} {note : Note}

theorem values_concat (flag : Nat) (notes : List Note) (note : Note) :
    Note.values flag (notes ++ [note]) = Note.values flag notes ++ (note.value? flag).toList := by
  unfold Note.values
  rw [List.filterMap_append]
  cases hvalue : note.value? flag <;> simp [hvalue]

theorem values_concat_of_none (h : note.value? n = none) :
    Note.values n (notes ++ [note]) = Note.values n notes := by
  rw [values_concat, h]
  exact List.append_nil _

theorem lastTouch?_concat (notes : List Note) (note : Note) :
    Note.lastTouch? (notes ++ [note]) = if note.touches then some note else Note.lastTouch? notes := by
  unfold Note.lastTouch?
  rw [List.filter_append]
  by_cases htouch : note.touches
  · simp [htouch]
  · simp [htouch]

theorem lastTouch?_of_untouched {later : List Note} (before : List Note) (htouch : note.touches)
    (hlater : ∀ note ∈ later, note.touches = false) :
    Note.lastTouch? (before ++ note :: later) = some note := by
  have hrest : later.filter Note.touches = [] := by
    rw [List.filter_eq_nil_iff]
    intro note hnote
    simp [hlater note hnote]
  unfold Note.lastTouch?
  rw [List.filter_append, List.filter_cons_of_pos htouch, hrest]
  simp

/-- A note on neither the flags nor the file changes nothing of what is known of them. -/
theorem Sound.keep (hs : Sound h notes) {switches : List Nat} {watchers : List (Nat × MuteWatcher)}
    (hvalue : ∀ n, note.value? n = none) (htouch : note.touches = false)
    (hswitches : ∀ n ∈ switches, n < h.flags.length)
    (hwatchers : ∀ w ∈ watchers, ∃ m, h.flags[w.1]? = some m ∧ w.2.version ≤ m.version) :
    Sound { h with switches, watchers } (notes ++ [note]) where
  switches := hswitches
  watchers := hwatchers
  value := by
    intro n m hm
    rw [values_concat_of_none (hvalue n)]
    exact hs.value n m hm
  file := by
    intro n muted hlast
    rw [lastTouch?_concat, htouch, if_neg Bool.false_ne_true] at hlast
    exact hs.file n muted hlast

theorem Sound.opened (hs : Sound h notes) (m : Mute) :
    Sound { h with flags := h.flags ++ [m], switches := h.switches ++ [h.flags.length] }
      (notes ++ [.opened h.flags.length m.muted]) where
  switches := by
    intro n hn
    rw [List.length_append, List.length_singleton]
    rcases List.mem_append.1 hn with hn | hn
    · have hlt := hs.switches n hn
      omega
    · rw [List.mem_singleton.1 hn]
      omega
  watchers := by
    intro w hw
    obtain ⟨f, hf, hle⟩ := hs.watchers w hw
    have hlt := (List.getElem?_eq_some_iff.1 hf).1
    exact ⟨f, (List.getElem?_append_left hlt).trans hf, hle⟩
  value := by
    intro n f hf
    by_cases hn : n = h.flags.length
    · -- The new flag was opened with its value.
      subst hn
      obtain rfl : m = f := by simpa using hf
      simp [values_concat, Note.value?]
    · have hlt : n < h.flags.length := by
        have hbound := (List.getElem?_eq_some_iff.1 hf).1
        rw [List.length_append, List.length_singleton] at hbound
        omega
      rw [List.getElem?_append_left hlt] at hf
      have hother : (Note.opened h.flags.length m.muted).value? n = none := if_neg (Ne.symm hn)
      rw [values_concat_of_none hother]
      exact hs.value n f hf
  file := by
    intro n muted hlast
    rw [lastTouch?_concat, Note.touches, if_neg Bool.false_ne_true] at hlast
    exact hs.file n muted hlast

theorem Sound.set (hs : Sound h notes) {muted : Bool} {place : FilePlace}
    (hm : h.flags[n]? = some m) (hplace : h.place.write? (text muted) = some place) :
    Sound (h.written n m muted place) (notes ++ [.set n muted]) where
  switches := by
    intro k hk
    rw [written, List.length_set]
    exact hs.switches k hk
  watchers := by
    rintro ⟨k, seen⟩ hw
    obtain ⟨f, hf, hle⟩ := hs.watchers _ hw
    by_cases hk : n = k
    · subst hk
      obtain rfl : m = f := Option.some.inj (hm.symm.trans hf)
      exact ⟨_, getElem?_written hm muted place, Nat.le_succ_of_le hle⟩
    · exact ⟨f, (List.getElem?_set_ne hk).trans hf, hle⟩
  value := by
    intro k f hf
    by_cases hk : n = k
    · subst hk
      obtain rfl := Option.some.inj ((getElem?_written hm muted place).symm.trans hf)
      simp [values_concat, Note.value?]
    · have hold : h.flags[k]? = some f := (List.getElem?_set_ne hk).symm.trans hf
      have hother : (Note.set n muted).value? k = none := if_neg hk
      rw [values_concat_of_none hother]
      exact hs.value k f hold
  file := by
    intro k value hlast
    rw [lastTouch?_concat, Note.touches, if_pos rfl] at hlast
    obtain ⟨-, rfl⟩ := Note.set.inj (Option.some.inj hlast)
    exact FilePlace.read?_write? hplace

theorem Sound.rewritten (hs : Sound h notes) (place : FilePlace) :
    Sound { h with place } (notes ++ [.rewritten]) where
  switches := hs.switches
  watchers := hs.watchers
  value := by
    intro n m hm
    rw [values_concat_of_none rfl]
    exact hs.value n m hm
  file := by
    intro n muted hlast
    rw [lastTouch?_concat, Note.touches, if_pos rfl] at hlast
    cases hlast

theorem Sound.took (hs : Sound h notes) {o : Household × Note} (ht : Took h o) :
    Sound o.1 (notes ++ [o.2]) := by
  cases ht with
  | opened hm => exact hs.opened _
  | set hm hplace => exact hs.set hm hplace
  | failed => exact hs.keep (fun _ => rfl) rfl hs.switches hs.watchers
  | rewritten place => exact hs.rewritten place
  | nothing => exact hs.keep (fun _ => rfl) rfl hs.switches hs.watchers
  | @cloned n hn =>
    refine hs.keep (fun _ => rfl) rfl (fun k hk => ?_) hs.watchers
    rcases List.mem_append.1 hk with hk | hk
    · exact hs.switches k hk
    · rw [List.mem_singleton.1 hk]
      exact hs.switches n hn
  | @watching n m watchers hm hwatchers =>
    refine hs.keep (fun _ => rfl) rfl hs.switches fun w hw => ?_
    rcases hwatchers w hw with hw | rfl
    · exact hs.watchers w hw
    · exact ⟨m, hm, Nat.le_refl _⟩

theorem sound_run (place : FilePlace) (acts : List Act) :
    Sound (run place acts).1 (run place acts).2 := by
  induction acts using List.reverseRecOn with
  | nil =>
    refine ⟨?_, ?_, ?_, ?_⟩
    · intro n hn
      cases hn
    · intro w hw
      cases hw
    · intro n m hm
      cases hm
    · intro n muted hlast
      cases hlast
  | append_singleton acts act ih =>
    rw [run_concat]
    exact ih.took (step_took _ act)

theorem Sound.exists_flag (hs : Sound h notes) (hn : h.switches[switch]? = some n) :
    ∃ m, h.flag? switch = some (n, m) := by
  have hlt := hs.switches n (List.mem_of_getElem? hn)
  obtain ⟨m, hm⟩ : ∃ m, h.flags[n]? = some m := ⟨_, List.getElem?_eq_getElem hlt⟩
  exact ⟨m, by simp [flag?, hn, hm]⟩

/-- A watcher has seen no more than was there, so a version more is news. -/
theorem Sound.isNews (hs : Sound h notes) (hm : h.flags[n]? = some m) {w : Nat × MuteWatcher}
    (hw : w ∈ h.watchers) (hwn : w.1 = n) (muted : Bool) :
    ({ muted, version := m.version + 1 } : Mute).isNews w.2 := by
  subst hwn
  obtain ⟨f, hf, hle⟩ := hs.watchers w hw
  obtain rfl : m = f := Option.some.inj (hm.symm.trans hf)
  unfold Mute.isNews
  rw [bne_iff_ne]
  dsimp only
  omega

end

/-! ## The law -/

theorem change_note (value : Mute → Bool) (hflag : h.flag? switch = some (n, m)) :
    (h.change switch fun m p => m.set? p (value m)).2 =
      if h.place.isWritable then .set n (value m) else .failed := by
  have hplace := h.place.write?_isSome (text (value m))
  simp only [change, hflag, set?]
  cases hwrite : h.place.write? (text (value m)) with
  | none =>
    rw [hwrite] at hplace
    simp [← hplace]
  | some place =>
    rw [hwrite] at hplace
    simp [← hplace]

theorem Took.of_failed {o : Household × Note} (ht : Took h o) (hnote : o.2 = .failed) : o.1 = h := by
  cases ht with
  | failed => rfl
  | _ => cases hnote

theorem Took.of_set {o : Household × Note} {muted : Bool} (ht : Took h o) (hnote : o.2 = .set n muted) :
    ∃ m place, h.flags[n]? = some m ∧ o.1 = h.written n m muted place := by
  cases ht with
  | @set k m value place hm hplace =>
    obtain ⟨rfl, rfl⟩ := Note.set.inj hnote
    exact ⟨m, place, hm, rfl⟩
  | _ => cases hnote

/-- The values of a flag come from its opening and from what was set since, through any of its
switches. Each of these tells the last one. To set or toggle it fails where no file can be written;
then nothing has changed, neither the file nor any flag nor what any watcher sees. Else there is news
for each who watches the flag, with the new value, and no other flag is touched. If nobody else
wrote the file since a flag was set last, the file can be opened and has that value. -/
theorem a_flag_is_what_was_set_last (place : FilePlace) (acts : List Act) :
    let h := (run place acts).1
    let notes := (run place acts).2
    (∀ switch n, h.switches[switch]? = some n → ∃ muted, h.get? switch = some muted ∧
      (Note.values n notes).getLast? = some muted ∧
      (∀ b, (h.step (.set switch b)).2 = if h.place.isWritable then .set n b else .failed) ∧
      (h.step (.toggle switch)).2 = if h.place.isWritable then .set n !muted else .failed) ∧
    (∀ act, (h.step act).2 = .failed → (h.step act).1 = h) ∧
    (∀ act n muted, (h.step act).2 = .set n muted →
      let after := (h.step act).1
      (∃ m, after.flags[n]? = some m ∧ m.muted = muted ∧
        ∀ w ∈ after.watchers, w.1 = n → m.isNews w.2) ∧
      after.watchers = h.watchers ∧
      ∀ k ≠ n, after.flags[k]? = h.flags[k]?) ∧
    ∀ before n muted later, notes = before ++ .set n muted :: later →
      (∀ note ∈ later, note.touches = false) →
      (h.step .openFile).2 = .opened h.flags.length muted := by
  intro h notes
  have hs : Sound h notes := sound_run place acts
  refine ⟨?_, fun act => (step_took h act).of_failed, ?_, ?_⟩
  · intro switch n hn
    obtain ⟨m, hflag⟩ := hs.exists_flag hn
    have hvalue := hs.value n m (flag?_eq_some hflag).2
    refine ⟨m.muted, by simp [get?, hflag], hvalue, fun b => ?_, ?_⟩
    · exact change_note (fun _ => b) hflag
    · exact change_note (fun m => !m.muted) hflag
  · intro act n muted hnote after
    obtain ⟨m, q, hm, hwritten⟩ := (step_took h act).of_set hnote
    have hafter : after = h.written n m muted q := hwritten
    rw [hafter]
    refine ⟨⟨_, getElem?_written hm muted q, rfl, ?_⟩, rfl, ?_⟩
    · intro w hw hwn
      exact hs.isNews hm hw hwn muted
    · intro k hk
      exact List.getElem?_set_ne (Ne.symm hk)
  · intro before n muted later hnotes hlater
    have hlast : Note.lastTouch? notes = some (.set n muted) := by
      rw [hnotes]
      exact lastTouch?_of_untouched before rfl hlater
    simp only [step, openFile, open?_of_read? (hs.file n muted hlast)]

/-- A switch and its clone; the clone mutes, and the one who watches has seen it. -/
def evening : List Act := [.openFile, .clone 0, .watch 0, .set 1 true, .look 0]

/-- The first switch tells what the clone has set, and so does the file when it is opened again.
What the first switch sets is news. When there is a directory at the place of the file, a toggle
changes nothing. -/
theorem the_clone_is_heard_of :
    let h := (run .missing evening).1
    let blocked := (run .missing (evening ++ [.rewrite .directory])).1
    h.switches[0]? = some 0 ∧ h.get? 0 = some true ∧
    (h.step (.toggle 0)).2 = .set 0 false ∧
    (∃ m, (h.step (.toggle 0)).1.flags[0]? = some m ∧ m.muted = false ∧
      ∀ w ∈ (h.step (.toggle 0)).1.watchers, w.1 = 0 → m.isNews w.2) ∧
    (run .missing evening).2 = [.opened 0 false, .nothing, .nothing] ++ .set 0 true :: [.nothing] ∧
    (h.step .openFile).2 = .opened 1 true ∧
    (blocked.step (.toggle 0)).2 = .failed ∧ (blocked.step (.toggle 0)).1 = blocked := by
  intro h blocked
  obtain ⟨hswitch, -, hset, hfile⟩ := a_flag_is_what_was_set_last .missing evening
  obtain ⟨-, hfailed, -, -⟩ :=
    a_flag_is_what_was_set_last .missing (evening ++ [.rewrite .directory])
  have hfirst : h.switches[0]? = some 0 := by decide
  have htoggle : (h.step (.toggle 0)).2 = .set 0 false := by decide
  have hnotes : (run .missing evening).2 =
      [.opened 0 false, .nothing, .nothing] ++ .set 0 true :: [.nothing] := by decide
  have hblocked : (blocked.step (.toggle 0)).2 = .failed := by decide
  obtain ⟨muted, hget, hvalue, -, -⟩ := hswitch 0 0 hfirst
  obtain rfl : true = muted := by
    rw [hnotes] at hvalue
    exact Option.some.inj hvalue
  exact ⟨hfirst, hget, htoggle, (hset (.toggle 0) 0 false htoggle).1, hnotes,
    hfile _ 0 true [.nothing] hnotes (by decide), hblocked, hfailed (.toggle 0) hblocked⟩

end Household

end Mute

end HuntBoard
