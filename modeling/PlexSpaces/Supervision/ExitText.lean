import PlexSpaces.Supervision.ExitPropagation
/-!
# Exit reasons as texts

The messages about an exit carry its reason as a text.  A link is written with the id of the
linked actor and the reason behind it, with a colon between them, and is read at the first
colon behind `linked:`.  The canonical text of an actor id has two colons of its own, so no link
to an actor is ever read back: the id comes out unknown and the reason as an error.  So the
end of the chain survives exactly where there is no link, or where it is an error anyway
(`exit_texts_read_iff`).
-/

namespace PlexSpaces.Supervision

open PlexSpaces.Lib PlexSpaces.Actors

def actorIds : ActorIds ActorId where
  fromCanonical text := (ActorId.fromCanonical text).toOption
  unknownLinked := unknownLinkedActorId

namespace ExitReason

def innerText {ι : Type} : ExitReason ι → String
  | .normal => "normal"
  | .shutdown => "shutdown"
  | .killed => "killed"
  | .error message => message
  | .linked _ _ => "linked"

def exitReasonToString : ExitReason ActorId → String
  | .normal => "normal"
  | .shutdown => "shutdown"
  | .killed => "killed"
  | .error message => message
  | .linked actorId reason => "linked:" ++ actorId.asStr ++ ":" ++ reason.innerText

/-- The texts that are read as a chain of links, maybe none, to a reason of this kind that is
not an error. -/
inductive EndsIn : List Char → ProtoExitReason → Prop
  | normal : EndsIn "normal".toList .normal
  | shutdown : EndsIn "shutdown".toList .shutdown
  | killed : EndsIn "killed".toList .killed
  | linked {x y : List Char} {kind : ProtoExitReason} : ':' ∉ x → EndsIn y kind →
      EndsIn ("linked:".toList ++ (x ++ ':' :: y)) kind

section Parse

variable {ι : Type} (ids : ActorIds ι)

/-- Behind `linked:`, up to the next colon, stands the id. -/
theorem parse_linked {x : List Char} (hx : ':' ∉ x) (y : List Char) :
    parse ids ("linked:".toList ++ (x ++ ':' :: y)) =
      .linked ((ids.fromCanonical (String.ofList x)).getD ids.unknownLinked) (parse ids y) := by
  have hcut : cut ':' (("linked:".toList ++ (x ++ ':' :: y)).drop 7) = some (x, y) :=
    cut_append_cons hx y
  rw [parse, if_neg (by simp), if_neg (by simp), if_neg (by simp), if_pos (by simp)]
  split
  · next hsome =>
      rw [hcut] at hsome
      cases hsome
      rfl
  · next hnone =>
      rw [hcut] at hnone
      cases hnone

theorem parse_of_colon (s : List Char) :
    parse ids (':' :: s) = .error (String.ofList (':' :: s)) := by
  rw [parse, if_neg (by simp), if_neg (by simp), if_neg (by simp), if_neg (by simp)]

theorem message_of_parse {s : List Char} {message : String}
    (h : parse ids s = .error message) : message = String.ofList s := by
  rw [parse] at h
  split_ifs at h
  · split at h <;> cases h
    rfl
  · cases h
    rfl

theorem rootKind_of_endsIn {s : List Char} {kind : ProtoExitReason} (h : EndsIn s kind) :
    (parse ids s).rootKind = kind ∧ kind ≠ .error := by
  induction h with
  | normal => exact ⟨by rw [parse, if_pos rfl]; rfl, by decide⟩
  | shutdown => exact ⟨by rw [parse, if_neg (by simp), if_pos rfl]; rfl, by decide⟩
  | killed =>
      exact ⟨by rw [parse, if_neg (by simp), if_neg (by simp), if_pos rfl]; rfl, by decide⟩
  | linked hx _ ih =>
      rw [parse_linked ids hx]
      exact ih

/-- What is not read as an error ends in one of the other reasons. -/
theorem endsIn_of_rootKind (s : List Char) (h : (parse ids s).rootKind ≠ .error) :
    EndsIn s (parse ids s).rootKind := by
  induction s using parse.induct with
  | case1 => rw [parse, if_pos rfl]; exact .normal
  | case2 => rw [parse, if_neg (by simp), if_pos rfl]; exact .shutdown
  | case3 => rw [parse, if_neg (by simp), if_neg (by simp), if_pos rfl]; exact .killed
  | case4 s _ _ _ hprefix x y hcut ih =>
      obtain ⟨rest, rfl⟩ := List.isPrefixOf_iff_prefix.mp hprefix
      obtain ⟨hrest, hx⟩ := eq_of_cut hcut
      have hrest' : rest = x ++ ':' :: y := hrest
      subst hrest'
      rw [parse_linked ids hx] at h ⊢
      exact .linked hx (ih h)
  | case5 s hnormal hshutdown hkilled hprefix hcut =>
      refine absurd ?_ h
      rw [parse, if_neg hnormal, if_neg hshutdown, if_neg hkilled, if_pos hprefix]
      split
      · next hsome => rw [hcut] at hsome; cases hsome
      · rfl
  | case6 s hnormal hshutdown hkilled hprefix =>
      rw [parse, if_neg hnormal, if_neg hshutdown, if_neg hkilled, if_neg hprefix] at h
      exact absurd rfl h

theorem rootKind_eq_error_iff (s : List Char) :
    (parse ids s).rootKind = .error ↔ ∀ kind, ¬EndsIn s kind := by
  constructor
  · intro h kind hends
    obtain ⟨hkind, hne⟩ := rootKind_of_endsIn ids hends
    exact hne (hkind.symm.trans h)
  · intro h
    by_contra hne
    exact h _ (endsIn_of_rootKind ids s hne)

end Parse

/-! ## The texts of links -/

theorem fromStr_linked (a : ActorId) (s : String) :
    fromStr actorIds ("linked:" ++ a.asStr ++ ":" ++ s) =
      .linked unknownLinkedActorId (.error (":" ++ a.nsName ++ "@" ++ a.nodeId ++ ":" ++ s)) := by
  have htext : ("linked:" ++ a.asStr ++ ":" ++ s).toList = "linked:".toList ++
      ((a.name.toList ++ ("//".toList ++ a.actorType.toList)) ++ ':' ::
        (":" ++ a.nsName ++ "@" ++ a.nodeId ++ ":" ++ s).toList) := by
    simp [ActorId.asStr, ActorId.toList_canonical]
  have hword : ∀ c ∈ a.name.toList ++ ("//".toList ++ a.actorType.toList),
      isWordChar c = true ∨ c = '/' := by
    intro c hc
    rcases List.mem_append.mp hc with hname | hc
    · exact .inl (ActorId.isWordChar_of_validateName a.name_valid hname)
    · rcases List.mem_append.mp hc with hslash | htype
      · right
        simpa using hslash
      · exact .inl (ActorId.isWordChar_of_validateActorType a.actorType_valid htype)
  have hcolon : ':' ∉ a.name.toList ++ ("//".toList ++ a.actorType.toList) := by
    intro h
    exact absurd (hword _ h) (by decide)
  have hat : '@' ∉ a.name.toList ++ ("//".toList ++ a.actorType.toList) := by
    intro h
    exact absurd (hword _ h) (by decide)
  -- in front of the colon there is no `@`, so it is no canonical id
  have hid : actorIds.fromCanonical
      (String.ofList (a.name.toList ++ ("//".toList ++ a.actorType.toList))) = none := by
    have hlast : cutLast '@' (a.name.toList ++ ("//".toList ++ a.actorType.toList)) = none := by
      rw [cutLast, cut_eq_none fun h => hat (List.mem_reverse.mp h)]
      rfl
    change (ActorId.fromCanonical _).toOption = none
    unfold ActorId.fromCanonical
    rw [String.toList_ofList, hlast]
    rfl
  rw [fromStr, htext, parse_linked _ hcolon, hid]
  have hrest : (":" ++ a.nsName ++ "@" ++ a.nodeId ++ ":" ++ s).toList =
      ':' :: (a.nsName ++ "@" ++ a.nodeId ++ ":" ++ s).toList := by
    simp
  rw [hrest, parse_of_colon, ← hrest, String.ofList_toList]
  rfl

/-- The text of a link to an actor is not read as a link to the reason behind it. -/
theorem fromStr_linked_ne (a b : ActorId) (s : String) :
    fromStr actorIds ("linked:" ++ a.asStr ++ ":" ++ s) ≠ .linked b (fromStr actorIds s) := by
  rw [fromStr_linked]
  intro h
  rw [ExitReason.linked.injEq] at h
  have hmessage := congrArg String.toList (message_of_parse actorIds h.2.symm)
  have hlength := congrArg List.length hmessage
  simp at hlength
  omega

/-- The reasons whose texts tell their end: no link, and no error that looks like another
reason; or links to an error. -/
def TellsEnd : ExitReason ActorId → Prop
  | .error message => ∀ kind, ¬EndsIn message.toList kind
  | .linked _ reason => reason.rootKind = .error
  | _ => True

theorem rootKind_fromStr_iff (r : ExitReason ActorId) :
    (fromStr actorIds r.exitReasonToString).rootKind = r.rootKind ↔ r.TellsEnd := by
  cases r with
  | normal => exact iff_of_true (rootKind_of_endsIn actorIds .normal).1 trivial
  | shutdown => exact iff_of_true (rootKind_of_endsIn actorIds .shutdown).1 trivial
  | killed => exact iff_of_true (rootKind_of_endsIn actorIds .killed).1 trivial
  | error message => exact rootKind_eq_error_iff actorIds message.toList
  | linked actorId reason =>
      rw [exitReasonToString, fromStr_linked]
      exact eq_comm

/-- No text of a link to an actor is read back, and the text of a reason is read as one with the
same end exactly when it tells its end. -/
theorem exit_texts_read_iff (a b : ActorId) (s : String) (r : ExitReason ActorId) :
    fromStr actorIds ("linked:" ++ a.asStr ++ ":" ++ s) ≠ .linked b (fromStr actorIds s) ∧
      ((fromStr actorIds r.exitReasonToString).rootKind = r.rootKind ↔ r.TellsEnd) :=
  ⟨fromStr_linked_ne a b s, rootKind_fromStr_iff r⟩

/-- A link to an actor that was killed: the id and the kill are lost. -/
theorem not_exit_texts_read :
    ¬(∀ (a : ActorId) (s : String),
      fromStr actorIds ("linked:" ++ a.asStr ++ ":" ++ s) = .linked a (fromStr actorIds s)) ∧
    ¬∀ r : ExitReason ActorId,
      (∀ message, r.root = .error message → fromStr actorIds message = .error message) →
        (fromStr actorIds r.exitReasonToString).rootKind = r.rootKind := by
  constructor
  · intro h
    exact fromStr_linked_ne _ _ _ (h unknownLinkedActorId "killed")
  · intro h
    have hkind := h (.linked unknownLinkedActorId .killed) (by intro message hroot; cases hroot)
    rw [rootKind_fromStr_iff] at hkind
    cases hkind

end ExitReason

end PlexSpaces.Supervision
