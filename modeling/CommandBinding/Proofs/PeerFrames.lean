import CommandBinding.Proofs.PeerReadings

/-!
What all peers of a function have in common. They stand in one frame, which is taken over from the function and from the
directive, and they are the functions that belong to the directive.
-/
namespace CommandBinding.Peer

open Source

variable {f : FunctionItem} {b : Binding} {directive : Directive} {settings : Settings} {peers : List Peer} {peer : Peer}
  {frame : PeerFrame}

theorem isAssociated_of_frameOf (h : frameOf f directive = .ok frame) : frame.isAssociated = directive.associated := by
  simp only [frameOf, bind_eq_ok_iff, pure, Except.pure, Except.ok.injEq] at h
  obtain ⟨runtime, -, rfl⟩ := h
  rfl

theorem visibility_of_frameOf (h : frameOf f directive = .ok frame) : frame.visibility = f.visibility := by
  simp only [frameOf, bind_eq_ok_iff, pure, Except.pure, Except.ok.injEq] at h
  obtain ⟨runtime, -, rfl⟩ := h
  rfl

theorem mainOf_eq_ok (h : mainOf f b directive = .ok peer) :
    frameOf f directive = .ok peer.frame ∧ peer.role.functionName = "main" := by
  simp only [mainOf, bind_eq_ok_iff, pure, Except.pure, Except.ok.injEq] at h
  obtain ⟨frame, hframe, configuration, -, reading, -, call, -, rfl⟩ := h
  exact ⟨hframe, rfl⟩

theorem callOf_eq_ok (h : callOf f b directive = .ok peer) :
    frameOf f directive = .ok peer.frame ∧ peer.role.functionName = "call" := by
  simp only [callOf, bind_eq_ok_iff, pure, Except.pure, Except.ok.injEq] at h
  obtain ⟨frame, hframe, successType, -, configuration, -, reading, -, call, -, rfl⟩ := h
  exact ⟨hframe, rfl⟩

theorem actionsOf_eq_ok (h : actionsOf f b directive settings = .ok peers) :
    (∀ peer ∈ peers, frameOf f directive = .ok peer.frame) ∧
      peers.map (·.role.functionName) = ["action_config", "action"] := by
  cases hstate : b.state with
  | none => simp [actionsOf, hstate, bind_eq_ok_iff, throw, throwThe, MonadExceptOf.throw] at h
  | some state =>
    simp only [actionsOf, hstate, bind_eq_ok_iff, pure, Except.pure, Except.ok.injEq] at h
    obtain ⟨frame, hframe, configuration, -, elementType, -, chainNode, -, reading, -, call, -, rfl⟩ := h
    refine ⟨?_, rfl⟩
    intro peer hpeer
    simp only [List.mem_cons, List.not_mem_nil, or_false] at hpeer
    rcases hpeer with rfl | rfl
    · exact hframe
    · exact hframe

/-- All functions that belong to the directive are generated, and all of them in the same frame. -/
theorem peersOf_eq_ok (h : peersOf f b directive settings = .ok peers) :
    (∀ peer ∈ peers, frameOf f directive = .ok peer.frame) ∧
      (peers.map (·.role.functionName)).Perm b.kind.peerNames := by
  unfold peersOf at h
  split at h
  · next hkind =>
    simp only [bind_eq_ok_iff, pure, Except.pure, Except.ok.injEq] at h
    obtain ⟨peer, hpeer, rfl⟩ := h
    obtain ⟨hframe, hname⟩ := mainOf_eq_ok hpeer
    refine ⟨by simpa using hframe, ?_⟩
    simp [hname, hkind, DirectiveKind.peerNames]
  · next hkind =>
    simp only [bind_eq_ok_iff, pure, Except.pure, Except.ok.injEq] at h
    obtain ⟨peer, hpeer, rfl⟩ := h
    obtain ⟨hframe, hname⟩ := callOf_eq_ok hpeer
    refine ⟨by simpa using hframe, ?_⟩
    simp [hname, hkind, DirectiveKind.peerNames]
  · next hkind =>
    obtain ⟨hframes, hnames⟩ := actionsOf_eq_ok h
    refine ⟨hframes, ?_⟩
    rw [hnames, hkind]
    exact List.Perm.swap _ _ _

end CommandBinding.Peer
