import Crossing.Proofs.Boundary.Transcoding
import Crossing.Proofs.Strategy.ObjectCalls

/-!
# Which name an object has

A *scene* is all that is behind the boundary, the variables of the caller that pointers and lengths
are written to, and a log of the calls so far with their replies.

* The world of a scene is changed by the entry points, which see handles.
* By the log alone, an object is `InUse` if it was made and not released, and `lastName` is the name
  that it was given last by a call that succeeded.

What a call comes to is said once, in `Outcome`, for any pointers and octets. The invariant is
`Scene.Sound`, which every call on an object in use keeps (`Scene.Sound.make`): the live objects are
those in use, each with its last name.

Main statement: `Scene.Reachable.named_as_last_given`.
-/

namespace Crossing.Boundary.Objects

open Call Text

variable {S C P : Type}

/-! ### Requests and replies -/

/-- A call of an entry point for objects. Any pointer may be null; the pointers for results are the
addresses of variables. -/
inductive Request
  | create (name : Option (List UInt8))
  | release (object : Option Nat)
  | setName (object : Option Nat) (name : Option (List UInt8))
  | getName (object : Option Nat) (pointerOut lengthOut : Option Nat)
  | concatenate (object : Option Nat) (a b : Option (List UInt8))
    (pointerOut lengthOut : Option Nat)
  deriving DecidableEq

/-- What a call comes back with. -/
inductive Reply
  | made (object : Nat)
  | notMade
  | done
  | text (span : Span UInt8)
  | failed (cause : Cause)
  deriving DecidableEq

/-- Whether the call failed. -/
def Reply.isFailure : Reply → Bool
  | notMade | failed _ => true
  | _ => false

/-- A name is there, and is UTF-8. -/
def IsName (name : Option (List UInt8)) : Prop :=
  ∃ cs : List Char, name = some (cs.flatMap String.utf8EncodeChar)

namespace Request

/-- The call of the entry point. -/
def entry : Request → Call (World S C P) Reply
  | create name => do
    let object ← World.onObjects (modifyGet (Objects.create name))
    return object.elim .notMade .made
  | release object => do
    World.onObjects (modify (Objects.drop object))
    return .done
  | setName object name => do
    World.onObjects (Objects.setName object name)
    return .done
  | getName object pointerOut lengthOut => do
    return .text (← World.objectName object pointerOut.isSome lengthOut.isSome)
  | concatenate object a b pointerOut lengthOut => do
    return .text (← World.concatenate object a b pointerOut.isSome lengthOut.isSome)

/-- The reply to a call, and what it leaves behind. -/
def perform (r : Request) (w : World S C P) : Reply × World S C P :=
  match r.entry.run w with
  | (.ok reply, w) => (reply, w)
  | (.error cause, w) => (.failed cause, w)

/-- The object that a call is on. -/
def object : Request → Option Nat
  | create _ => none
  | release object | setName object _ | getName object _ _ | concatenate object _ _ _ _ => object

/-- The variables for the pointer and for the length that a call is given. -/
def outs : Request → Option Nat × Option Nat
  | getName _ pointerOut lengthOut | concatenate _ _ _ pointerOut lengthOut =>
    (pointerOut, lengthOut)
  | _ => (none, none)

/-- What has to be there is there, and what has to be UTF-8 is. The views to concatenate may be null
and need not be UTF-8. -/
def Fit : Request → Prop
  | create name => IsName name
  | release _ => True
  | setName object name => object.isSome ∧ IsName name
  | getName object pointerOut lengthOut | concatenate object _ _ pointerOut lengthOut =>
    object.isSome ∧ pointerOut.isSome ∧ lengthOut.isSome

/-- The reply to a call that is not fit. Null pointers are found first. -/
def refusal : Request → Reply
  | create _ => .notMade
  | setName (some _) (some _) => .failed .invalidEncoding
  | _ => .failed .nullPointer

end Request

/-! ### What a call comes to -/

/-- A name is whatever can be decoded. -/
theorem isSome_decode?_iff {bytes : List UInt8} :
    (Utf8.decode? bytes).isSome ↔ IsName (some bytes) := by
  simp only [Option.isSome_iff_exists, Utf8.decode?_eq_some_iff, IsName, Utf8.encode_eq_flatMap,
    Option.some_inj]

/-- An object is made under the next number. -/
theorem create_of_isName {bytes : List UInt8} (h : IsName (some bytes)) (os : Objects) :
    os.create (some bytes) = (some os.issued, (os.insert bytes).2) :=
  if_pos (isSome_decode?_iff.2 h)

/-- Without a name there is no object, and nothing changes. -/
theorem create_of_not {name : Option (List UInt8)} (h : ¬IsName name) (os : Objects) :
    os.create name = (none, os) := by
  cases name with
  | none => rfl
  | some bytes => exact if_neg (isSome_decode?_iff.not.2 h)

/-- Numbers are not given back. -/
theorem issued_drop (object : Option Nat) (os : Objects) : (os.drop object).issued = os.issued := by
  cases object with
  | none => rfl
  | some o => exact apply_ite Arena.issued _ _ _ |>.trans (ite_self _)

/-- What a call can come to from a world: its reply, and what it leaves behind. -/
inductive Outcome (w : World S C P) : Request → Reply → World S C P → Prop
  | refused {r : Request} (h : ¬r.Fit) : Outcome w r r.refusal w
  | made {bytes : List UInt8} (h : IsName (some bytes)) :
    Outcome w (.create (some bytes)) (.made w.objects.issued)
      { w with objects := (w.objects.insert bytes).2 }
  | released (object : Option Nat) :
    Outcome w (.release object) .done { w with objects := w.objects.drop object }
  | renamed {o : Nat} {bytes : List UInt8} (hlive : (w.objects.get? o).isSome)
    (h : IsName (some bytes)) :
    Outcome w (.setName (some o) (some bytes)) .done { w with objects := w.objects.set o bytes }
  | named {o : Nat} {name : List UInt8} (h : w.objects.get? o = some name) (pointer length : Nat) :
    Outcome w (.getName (some o) (some pointer) (some length)) (.text (w.buffers.issue name).1)
      { w with buffers := (w.buffers.issue name).2 }
  | joined (o : Nat) (a b : Option (List UInt8)) (pointer length : Nat) :
    Outcome w (.concatenate (some o) a b (some pointer) (some length))
      (.text (w.buffers.issue (a.getD [] ++ b.getD [])).1)
      { w with buffers := (w.buffers.issue (a.getD [] ++ b.getD [])).2 }

section

variable {w : World S C P} {o : Nat} {name : List UInt8}

/-- A name that is none is refused, and the object keeps the one that it has. -/
theorem setName_of_not {os : Objects} {name : Option (List UInt8)} (hlive : (os.get? o).isSome)
    (h : ¬IsName name) :
    (Objects.setName (some o) name).run os =
      (.error (if name.isSome then .invalidEncoding else .nullPointer), os) := by
  obtain ⟨old, hold⟩ := Option.isSome_iff_exists.1 hlive
  cases name with
  | none =>
    simp only [Objects.setName, run_bind, run_demand_some, run_get, hold]
    rfl
  | some bytes =>
    have hbytes : Utf8.decode? bytes = none := by simpa using isSome_decode?_iff.not.2 h
    simp only [Objects.setName, run_bind, run_demand_some, run_get, hold, hbytes,
      run_demandText_none]
    rfl

/-- The name of an object is returned in a new buffer. -/
theorem objectName_run (h : w.objects.get? o = some name) (pointerOut lengthOut : Bool) :
    (World.objectName (some o) pointerOut lengthOut).run w =
      if pointerOut && lengthOut then
        (.ok (w.buffers.issue name).1, { w with buffers := (w.buffers.issue name).2 })
      else (.error .nullPointer, w) := by
  simp only [World.objectName, World.run_onBuffers, getName, Objects.name, Option.bind_some, h,
    run_bind, run_demand_some]
  cases pointerOut && lengthOut <;> rfl

/-- Both parts are returned in a new buffer, where a missing part counts as empty. -/
theorem concatenate_run (h : w.objects.get? o = some name) (a b : Option (List UInt8))
    (pointerOut lengthOut : Bool) :
    (World.concatenate (some o) a b pointerOut lengthOut).run w =
      if pointerOut && lengthOut then
        (.ok (w.buffers.issue (a.getD [] ++ b.getD [])).1,
          { w with buffers := (w.buffers.issue (a.getD [] ++ b.getD [])).2 })
      else (.error .nullPointer, w) := by
  simp only [World.concatenate, World.run_onBuffers, Objects.concatenate, Objects.name,
    Option.bind_some, h, run_bind, run_demand_some]
  cases pointerOut && lengthOut <;> rfl

/-- Every call on a live object, or on none, comes to one of these. -/
theorem Request.perform_outcome (r : Request)
    (hlive : ∀ o, r.object = some o → (w.objects.get? o).isSome) :
    Outcome w r (r.perform w).1 (r.perform w).2 := by
  cases r with
  | create name =>
    have hrun : (create name).perform w =
        ((w.objects.create name).1.elim .notMade .made,
          { w with objects := (w.objects.create name).2 }) := rfl
    rw [hrun]
    by_cases hname : IsName name
    · obtain ⟨cs, rfl⟩ := id hname
      rw [create_of_isName hname]
      exact .made hname
    · rw [create_of_not hname]
      exact .refused hname
  | release object => exact .released object
  | setName object name =>
    rcases object with - | o
    · exact .refused fun h ↦ Bool.noConfusion h.1
    · rw [perform, entry, run_bind, World.run_onObjects]
      by_cases hname : IsName name
      · obtain ⟨cs, rfl⟩ := id hname
        obtain ⟨old, hold⟩ := Option.isSome_iff_exists.1 (hlive o rfl)
        obtain ⟨cs', hcs'⟩ := Option.isSome_iff_exists.1 (isSome_decode?_iff.2 hname)
        rw [setName_run hold hcs']
        exact .renamed (hlive o rfl) hname
      · rw [setName_of_not (hlive o rfl) hname]
        cases name with
        | none => exact .refused fun h ↦ hname h.2
        | some bytes => exact .refused fun h ↦ hname h.2
  | getName object pointerOut lengthOut =>
    rcases object with - | o
    · exact .refused fun h ↦ Bool.noConfusion h.1
    · obtain ⟨name, hname⟩ := Option.isSome_iff_exists.1 (hlive o rfl)
      rw [perform, entry, run_bind, objectName_run hname]
      rcases pointerOut with - | pointer
      · exact .refused fun h ↦ Bool.noConfusion h.2.1
      · rcases lengthOut with - | length
        · exact .refused fun h ↦ Bool.noConfusion h.2.2
        · exact .named hname pointer length
  | concatenate object a b pointerOut lengthOut =>
    rcases object with - | o
    · exact .refused fun h ↦ Bool.noConfusion h.1
    · obtain ⟨name, hname⟩ := Option.isSome_iff_exists.1 (hlive o rfl)
      rw [perform, entry, run_bind, concatenate_run hname]
      rcases pointerOut with - | pointer
      · exact .refused fun h ↦ Bool.noConfusion h.2.1
      · rcases lengthOut with - | length
        · exact .refused fun h ↦ Bool.noConfusion h.2.2
        · exact .joined o a b pointer length

end

/-! ### What the log says -/

/-- Calls and their replies, the first one first. -/
abbrev Log := List (Request × Reply)

/-- The name that a call gave to an object: only one that succeeds gives it. -/
def given? (o : Nat) : Request × Reply → Option (List UInt8)
  | (.create name, .made o') => if o' = o then name else none
  | (.setName (some o') name, .done) => if o' = o then name else none
  | _ => none

namespace Log

/-- The object was made. -/
def Made (log : Log) (o : Nat) : Prop := ∃ x ∈ log, x.2 = .made o

/-- The object was released. -/
def Released (log : Log) (o : Nat) : Prop := ∃ x ∈ log, x.1 = .release (some o)

/-- The object was made and not released. -/
def InUse (log : Log) (o : Nat) : Prop := log.Made o ∧ ¬log.Released o

instance (log : Log) (o : Nat) : Decidable (log.InUse o) :=
  inferInstanceAs (Decidable ((∃ x ∈ log, x.2 = .made o) ∧ ¬∃ x ∈ log, x.1 = .release (some o)))

/-- The name that the object was given last. -/
def lastName (log : Log) (o : Nat) : Option (List UInt8) := (log.filterMap (given? o)).getLast?

/-- A call is on an object in use, or on none. -/
def Allows (log : Log) (r : Request) : Prop := ∀ o, r.object = some o → log.InUse o

variable {log : Log} {x : Request × Reply} {o : Nat} {r : Request}

theorem allows_of_none (h : r.object = none) : log.Allows r := by
  intro o ho
  rw [h] at ho
  cases ho

theorem allows_of_inUse (h : r.object = some o) (ho : log.InUse o) : log.Allows r := by
  intro o' ho'
  rwa [← Option.some_inj.1 (h.symm.trans ho')]

theorem made_concat : Made (log ++ [x]) o ↔ log.Made o ∨ x.2 = .made o := by
  simp [Made, or_and_right, exists_or]

theorem released_concat : Released (log ++ [x]) o ↔ log.Released o ∨ x.1 = .release (some o) := by
  simp [Released, or_and_right, exists_or]

/-- An object is in use from the reply that made it to the request that releases it. -/
theorem inUse_concat :
    InUse (log ++ [x]) o ↔
      (log.Made o ∨ x.2 = .made o) ∧ ¬log.Released o ∧ x.1 ≠ .release (some o) := by
  rw [InUse, made_concat, released_concat, not_or]

/-- Only the last exchange that gave a name counts. -/
theorem lastName_concat : lastName (log ++ [x]) o = (given? o x).or (log.lastName o) := by
  rw [lastName, List.filterMap_append, List.getLast?_append, lastName]
  cases h : given? o x <;> simp [h]

end Log

/-- A name is given to a new object, or to the one that the call is on. -/
theorem made_or_object_of_given? {o : Nat} {x : Request × Reply} :
    (given? o x).isSome → x.2 = .made o ∨ x.1.object = some o := by
  fun_cases given? o x with
  | case1 name => exact fun _ ↦ .inl rfl
  | case3 name => exact fun _ ↦ .inr rfl
  | _ => simp

/-- An exchange that failed gives no name. -/
theorem given?_of_isFailure {o : Nat} {x : Request × Reply} (h : x.2.isFailure) :
    given? o x = none := by
  revert h
  fun_cases given? o x <;> simp [Reply.isFailure]

theorem Request.isFailure_refusal (r : Request) : r.refusal.isFailure := by
  fun_cases Request.refusal r <;> rfl

theorem Request.refusal_ne_made (r : Request) (o : Nat) : r.refusal ≠ .made o := by
  intro heq
  have hfailure := r.isFailure_refusal
  rw [heq] at hfailure
  cases hfailure

namespace Outcome

variable {w w' : World S C P} {r : Request} {reply : Reply} (h : Outcome w r reply w')
include h

/-- **What a call does to names.** It takes away that of an object it releases, gives the name it
gives, and leaves all others. -/
theorem get?_eq (o : Nat) :
    w'.objects.get? o =
      if r = .release (some o) then none else (given? o (r, reply)).or (w.objects.get? o) := by
  cases h with
  | refused hfit =>
    rw [given?_of_isFailure r.isFailure_refusal, Option.none_or,
      if_neg (by rintro rfl; exact hfit trivial)]
  | made hname =>
    rw [if_neg Request.noConfusion, Arena.get?_insert, given?]
    by_cases ho : w.objects.issued = o
    · rw [if_pos ho, if_pos ho.symm, Option.some_or]
    · rw [if_neg ho, if_neg (Ne.symm ho), Option.none_or]
  | released object =>
    cases object with
    | none => rw [if_neg (by simp)]; rfl
    | some k =>
      show (w.objects.release k).get? o = _
      rw [Arena.get?_release]
      by_cases ho : o = k
      · rw [if_pos ho, if_pos (by rw [ho])]
      · rw [if_neg ho, if_neg (by simpa using Ne.symm ho)]
        rfl
  | @renamed k bytes hlive hname =>
    rw [if_neg Request.noConfusion, given?]
    by_cases ho : k = o
    · subst ho
      rw [if_pos rfl, Arena.get?_set_self hlive, Option.some_or]
    · rw [if_neg ho, Arena.get?_set, if_neg (Ne.symm ho), Option.none_or]
  | named hname pointer length => rfl
  | joined o' a b pointer length => rfl

/-- An object is made exactly if there is a name for it, and then it is the next one. -/
theorem made_iff {o : Nat} :
    reply = .made o ↔ o = w.objects.issued ∧ ∃ name, r = .create name ∧ IsName name := by
  cases h with
  | refused hfit =>
    refine iff_of_false (r.refusal_ne_made o) ?_
    rintro ⟨-, name, rfl, hname⟩
    exact hfit hname
  | made hname => simp [hname, eq_comm]
  | _ => simp

/-- Whoever makes an object gives it a name. -/
theorem isSome_given?_of_made {o : Nat} (ho : reply = .made o) : (given? o (r, reply)).isSome := by
  obtain ⟨-, name, rfl, cs, rfl⟩ := h.made_iff.1 ho
  rw [ho, given?, if_pos rfl]
  rfl

/-- Only an object that is made takes a number. -/
theorem lt_issued_iff (o : Nat) :
    o < w'.objects.issued ↔ o < w.objects.issued ∨ reply = .made o := by
  cases h with
  | refused hfit => simp [r.refusal_ne_made o]
  | made hname =>
    rw [Reply.made.injEq, eq_comm]
    exact Nat.lt_succ_iff_lt_or_eq
  | released object => simp [issued_drop]
  | renamed hlive hname => simp [Arena.set]
  | _ => simp

/-- A call fails exactly if it is not fit. -/
theorem isFailure_iff : reply.isFailure ↔ ¬r.Fit := by
  cases h with
  | refused hfit => exact iff_of_true r.isFailure_refusal hfit
  | made hname => simpa [Reply.isFailure, Request.Fit] using hname
  | renamed hlive hname => simpa [Reply.isFailure, Request.Fit] using hname
  | _ => simp [Reply.isFailure, Request.Fit]

/-- A call that fails leaves everything as it was. -/
theorem of_isFailure (hfailure : reply.isFailure) : reply = r.refusal ∧ w' = w := by
  cases h with
  | refused hfit => exact ⟨rfl, rfl⟩
  | _ => cases hfailure

end Outcome

/-- A name that is asked for is the one that the object has. -/
theorem Outcome.of_getName {w w' : World S C P} {reply : Reply} {o pointer length : Nat}
    (h : Outcome w (.getName (some o) (some pointer) (some length)) reply w') :
    ∃ name, w.objects.get? o = some name ∧ reply = .text (w.buffers.issue name).1 := by
  cases h with
  | refused hfit => exact absurd ⟨rfl, rfl, rfl⟩ hfit
  | named hname => exact ⟨_, hname, rfl⟩

/-- A concatenation has both parts, whatever the name of the object is. -/
theorem Outcome.of_concatenate {w w' : World S C P} {reply : Reply} {o pointer length : Nat}
    {a b : Option (List UInt8)}
    (h : Outcome w (.concatenate (some o) a b (some pointer) (some length)) reply w') :
    reply = .text (w.buffers.issue (a.getD [] ++ b.getD [])).1 := by
  cases h with
  | refused hfit => exact absurd ⟨rfl, rfl, rfl⟩ hfit
  | joined => rfl

/-! ### Scenes -/

/-- The variables of the caller, by their addresses: those for pointers and those for lengths. -/
structure Variables where
  pointers : Nat → Option Place
  lengths : Nat → Nat

/-- What a call came back with arrives in the variables that it was given. Only a text does. -/
def Variables.receive (v : Variables) (r : Request) : Reply → Variables
  | .text span =>
    { pointers := fun p ↦ if r.outs.1 = some p then some span.place else v.pointers p
      lengths := fun l ↦ if r.outs.2 = some l then span.items.length else v.lengths l }
  | _ => v

namespace Variables

variable (v : Variables) {r : Request}

/-- A failure writes nothing to the variables of the caller. -/
theorem receive_of_isFailure {reply : Reply} (h : reply.isFailure) : v.receive r reply = v := by
  cases reply with
  | text span => cases h
  | _ => rfl

/-- A reply writes to the pointer that was passed for it, and to no other. -/
theorem pointers_receive_of_ne {p : Nat} (h : r.outs.1 ≠ some p) (reply : Reply) :
    (v.receive r reply).pointers p = v.pointers p := by
  cases reply with
  | text span => exact if_neg h
  | _ => rfl

theorem lengths_receive_of_ne {l : Nat} (h : r.outs.2 ≠ some l) (reply : Reply) :
    (v.receive r reply).lengths l = v.lengths l := by
  cases reply with
  | text span => exact if_neg h
  | _ => rfl

end Variables

/-- The world, the variables of the caller, and what happened so far. -/
structure Scene (S C P : Type) where
  world : World S C P
  vars : Variables
  log : Log := []

namespace Scene

variable {s : Scene S C P} {r : Request}

/-- The reply to a call. -/
def reply (s : Scene S C P) (r : Request) : Reply := (r.perform s.world).1

/-- Makes a call. -/
def make (s : Scene S C P) (r : Request) : Scene S C P where
  world := (r.perform s.world).2
  vars := s.vars.receive r (s.reply r)
  log := s.log ++ [(r, s.reply r)]

/-- The name of an object. -/
def nameOf (s : Scene S C P) (o : Nat) : Option (List UInt8) := s.world.objects.name (some o)

/-- A call comes back with octets in a buffer, and the place of the buffer and its size arrive in
two variables. -/
def Delivers (s : Scene S C P) (r : Request) (pointer length : Nat) (items : List UInt8) : Prop :=
  ∃ handle, s.reply r = .text ⟨.issued handle, items⟩ ∧
    (s.make r).vars.pointers pointer = some (.issued handle) ∧
    (s.make r).vars.lengths length = items.length

/-- A text that is returned arrives in the variables that were passed for it. -/
theorem delivers_of_reply {b : Buffers} {items : List UInt8} {pointer length : Nat}
    (houts : r.outs = (some pointer, some length)) (h : s.reply r = .text (b.issue items).1) :
    s.Delivers r pointer length items := by
  refine ⟨b.issued, h, ?_, ?_⟩
  all_goals
    rw [make, h, Variables.receive, houts]
    exact if_pos rfl

/-- A scene comes about by calls, from one without objects. Each call is on an object that is in use
then, or on none. -/
inductive Reachable : Scene S C P → Prop
  | start (thread : Thread S C) (tests : CallbackTests P) (buffers : Buffers) (v : Variables) :
    Reachable { world := { thread, tests, buffers }, vars := v }
  | make {s : Scene S C P} {r : Request} (h : Reachable s) (hr : s.log.Allows r) :
    Reachable (s.make r)

/-- The log and the world tell the same story. -/
structure Sound (s : Scene S C P) : Prop where
  made_iff (o : Nat) : s.log.Made o ↔ o < s.world.objects.issued
  made_of_released {o : Nat} (h : s.log.Released o) : s.log.Made o
  isSome_iff (o : Nat) : (s.nameOf o).isSome ↔ s.log.InUse o
  nameOf_eq {o : Nat} (h : s.log.InUse o) : s.nameOf o = s.log.lastName o

namespace Sound

/-- Whatever request is allowed has one of the outcomes that are listed. -/
theorem outcome (h : s.Sound) (hr : s.log.Allows r) :
    Outcome s.world r (s.reply r) (s.make r).world :=
  r.perform_outcome fun o ho ↦ (h.isSome_iff o).2 (hr o ho)

/-- The object that is made is a new one. -/
theorem not_made (h : s.Sound) (hr : s.log.Allows r) {o : Nat} (ho : s.reply r = .made o) :
    ¬s.log.Made o := by
  rw [h.made_iff, ((h.outcome hr).made_iff.1 ho).1]
  exact Nat.lt_irrefl _

/-- A request changes the name of the object that it is about, and only if it gives one. -/
theorem nameOf_make (h : s.Sound) (hr : s.log.Allows r) (o : Nat) :
    (s.make r).nameOf o =
      if r = .release (some o) then none else (given? o (r, s.reply r)).or (s.nameOf o) :=
  (h.outcome hr).get?_eq o

/-- After a call as well, the objects with a name are those in use. -/
theorem isSome_nameOf_make_iff (h : s.Sound) (hr : s.log.Allows r) (o : Nat) :
    ((s.make r).nameOf o).isSome ↔ (s.make r).log.InUse o := by
  rw [h.nameOf_make hr]
  refine Iff.trans ?_ Log.inUse_concat.symm
  by_cases hrelease : r = .release (some o)
  · simp [hrelease]
  · rw [if_neg hrelease, Option.isSome_or, Bool.or_eq_true, h.isSome_iff]
    constructor
    · rintro (hgiven | hused)
      · rcases made_or_object_of_given? hgiven with ho | ho
        · exact ⟨.inr ho, fun hgone ↦ h.not_made hr ho (h.made_of_released hgone), hrelease⟩
        · exact ⟨.inl (hr o ho).1, (hr o ho).2, hrelease⟩
      · exact ⟨.inl hused.1, hused.2, hrelease⟩
    · rintro ⟨ho | ho, hkept, -⟩
      · exact .inr ⟨ho, hkept⟩
      · exact .inl ((h.outcome hr).isSome_given?_of_made ho)

/-- A call on an object in use, or on none, keeps the story. -/
theorem make (h : s.Sound) (hr : s.log.Allows r) : (s.make r).Sound := by
  have hout := h.outcome hr
  constructor
  case made_iff =>
    intro o
    rw [hout.lt_issued_iff, ← h.made_iff]
    exact Log.made_concat
  case made_of_released =>
    intro o ho
    rcases Log.released_concat.1 ho with ho | rfl
    · exact Log.made_concat.2 (.inl (h.made_of_released ho))
    · exact Log.made_concat.2 (.inl (hr o rfl).1)
  case isSome_iff => exact h.isSome_nameOf_make_iff hr
  case nameOf_eq =>
    intro o hused
    obtain ⟨ho, hkept, hrelease⟩ := Log.inUse_concat.1 hused
    rw [h.nameOf_make hr, if_neg hrelease]
    refine Eq.trans ?_ Log.lastName_concat.symm
    rcases ho with ho | ho
    · rw [h.nameOf_eq ⟨ho, hkept⟩]
    · obtain ⟨name, hgiven⟩ := Option.isSome_iff_exists.1 (hout.isSome_given?_of_made ho)
      rw [hgiven, Option.some_or, Option.some_or]

theorem nameOf_make_of_ne (h : s.Sound) (hr : s.log.Allows r) {o : Nat} (ho : s.log.InUse o)
    (hne : r.object ≠ some o) : (s.make r).nameOf o = s.nameOf o := by
  have hnone : given? o (r, s.reply r) = none := by
    by_contra hgiven
    rcases made_or_object_of_given? (Option.isSome_iff_ne_none.2 hgiven) with hmade | hobject
    · exact h.not_made hr hmade ho.1
    · exact hne hobject
  rw [h.nameOf_make hr, if_neg (by rintro rfl; exact hne rfl), hnone, Option.none_or]

end Sound

/-- By induction over the requests. -/
theorem Reachable.sound (h : s.Reachable) : s.Sound := by
  induction h with
  | start thread tests buffers v =>
    exact ⟨by simp [Log.Made], by simp [Log.Released],
      by simp [nameOf, name, Arena.get?, Log.InUse, Log.Made], by simp [Log.InUse, Log.Made]⟩
  | make _ hr ih => exact ih.make hr

/-- **An object has the name that it was given last.** In every scene that calls lead to, with any
pointers and octets, an object in use has the last name that it was given by a call that succeeded.
Of every further call on an object in use, or on none:

* it fails exactly if a pointer is null that must not be, or a name is not UTF-8, and then what is
  behind the boundary and the variables of the caller are as they were;
* so an object is made exactly if there is a name for it that is UTF-8, and it is a new one;
* asking for a name delivers its octets, and concatenating delivers the octets of both views,
  whatever they are;
* no object has another name after a call on another object, and no variable is written that the
  call was not given. -/
theorem Reachable.named_as_last_given (h : s.Reachable) :
    (∀ o, s.log.InUse o → ∃ name, s.nameOf o = some name ∧ s.log.lastName o = some name) ∧
    (∀ r, s.log.Allows r →
      ((s.reply r).isFailure ↔ ¬r.Fit) ∧
      ((s.reply r).isFailure →
        s.reply r = r.refusal ∧ (s.make r).world = s.world ∧ (s.make r).vars = s.vars) ∧
      (∀ o, s.log.InUse o → r.object ≠ some o → (s.make r).nameOf o = s.nameOf o) ∧
      (∀ p, r.outs.1 ≠ some p → (s.make r).vars.pointers p = s.vars.pointers p) ∧
      ∀ l, r.outs.2 ≠ some l → (s.make r).vars.lengths l = s.vars.lengths l) ∧
    (∀ name, (∃ o, s.reply (.create name) = .made o ∧ ¬s.log.Made o) ↔
      ∃ cs : List Char, name = some (cs.flatMap String.utf8EncodeChar)) ∧
    (∀ o pointer length, s.log.InUse o → ∃ name, s.log.lastName o = some name ∧
      s.Delivers (.getName (some o) (some pointer) (some length)) pointer length name) ∧
    ∀ o a b pointer length, s.log.InUse o →
      s.Delivers (.concatenate (some o) a b (some pointer) (some length)) pointer length
        (a.getD [] ++ b.getD []) := by
  have hs := h.sound
  refine ⟨fun o ho ↦ ?_, fun r hr ↦ ⟨?_, fun hfailure ↦ ?_, ?_, ?_, ?_⟩, fun name ↦ ?_,
    fun o pointer length ho ↦ ?_, fun o a b pointer length ho ↦ ?_⟩
  · obtain ⟨name, hname⟩ := Option.isSome_iff_exists.1 ((hs.isSome_iff o).2 ho)
    exact ⟨name, hname, (hs.nameOf_eq ho).symm.trans hname⟩
  · exact (hs.outcome hr).isFailure_iff
  · obtain ⟨hreply, hworld⟩ := (hs.outcome hr).of_isFailure hfailure
    exact ⟨hreply, hworld, s.vars.receive_of_isFailure hfailure⟩
  · exact fun o ho hne ↦ hs.nameOf_make_of_ne hr ho hne
  · exact fun p hp ↦ s.vars.pointers_receive_of_ne hp _
  · exact fun l hl ↦ s.vars.lengths_receive_of_ne hl _
  · have hr : s.log.Allows (.create name) := Log.allows_of_none rfl
    constructor
    · rintro ⟨o, hmade, -⟩
      obtain ⟨-, name', heq, hname⟩ := (hs.outcome hr).made_iff.1 hmade
      cases heq
      exact hname
    · intro hname
      have hmade := (hs.outcome hr).made_iff.2 ⟨rfl, name, rfl, hname⟩
      exact ⟨_, hmade, hs.not_made hr hmade⟩
  · obtain ⟨name, hname, hreply⟩ := (hs.outcome (Log.allows_of_inUse rfl ho)).of_getName
    exact ⟨name, (hs.nameOf_eq ho).symm.trans hname, delivers_of_reply rfl hreply⟩
  · exact delivers_of_reply rfl (hs.outcome (Log.allows_of_inUse rfl ho)).of_concatenate

/-- Two objects are made, one after a name that is null, and each is renamed, the first one with an
octet that is no UTF-8. It keeps its name, and serves to concatenate such octets. -/
theorem Reachable.named_as_last_given_after_refusals :
    let start : Scene Unit Unit Unit :=
      { world := {}, vars := { pointers := fun _ ↦ none, lengths := fun _ ↦ 0 } }
    let s := ((((start.make (.create (some [0xC3, 0xA9]))).make (.create none)).make
      (.create (some [0x62]))).make (.setName (some 0) (some [0xFF]))).make
        (.setName (some 1) (some [0x63, 0x64]))
    s.Reachable ∧ s.nameOf 0 = some [0xC3, 0xA9] ∧ s.nameOf 1 = some [0x63, 0x64] ∧
      (s.make (.getName (some 1) (some 5) none)).vars = s.vars ∧
      s.Delivers (.concatenate (some 0) (some [0xFF]) none (some 5) (some 6)) 5 6 [0xFF] := by
  intro start s
  have hs : s.Reachable :=
    .make (.make (.make (.make (.make (.start {} {} {} _)
      (Log.allows_of_none rfl)) (Log.allows_of_none rfl)) (Log.allows_of_none rfl))
      (Log.allows_of_inUse rfl (by decide))) (Log.allows_of_inUse rfl (by decide))
  have h0 : s.log.InUse 0 := by decide
  have h1 : s.log.InUse 1 := by decide
  obtain ⟨hnames, hcalls, -, -, hjoined⟩ := hs.named_as_last_given
  refine ⟨hs, ?_, ?_, ?_, hjoined 0 (some [0xFF]) none 5 6 h0⟩
  · obtain ⟨name, hname, hlast⟩ := hnames 0 h0
    rw [hname, ← hlast]
    decide
  · obtain ⟨name, hname, hlast⟩ := hnames 1 h1
    rw [hname, ← hlast]
    decide
  · obtain ⟨hfailure, hunchanged, -⟩ := hcalls (.getName (some 1) (some 5) none)
      (Log.allows_of_inUse rfl h1)
    exact (hunchanged (hfailure.2 fun hfit ↦ Bool.noConfusion hfit.2.2)).2.2

end Scene

end Crossing.Boundary.Objects
