import JumpHooks.Instruction.Register

/-!
# System operations

Operations on the state of the machine, which programs that manage other programs use. Their
names stand here once each; operations that are named for the width they work on take it as
a parameter.
-/

namespace JumpHooks

inductive SystemOperation where
  /- Registers of the machine -/
  | clac | clts | invd | invlpg | invpcid | lar | lgdt | lidt | lkgs | lldt | lmsw | lsl
  | ltr | rdfsbase | rdgsbase | rdmsr | rdmsrlist | rdpid | rdpkru | rdpmc | rdpru | rsm
  | sgdt | sidt | sldt | smsw | stac | str | swapgs | verr | verw | wrfsbase | wrgsbase
  | wrmsr | wrmsrlist | wrmsrns | wrpkru
  /- Entry into the system and back -/
  | eretu | erets | syscall | sysenter | sysexit (wide : Bool) | sysret (wide : Bool)
  /- Caches and the order of accesses -/
  | cldemote | clflush | clflushopt | clwb | clzero | lfence | mcommit | mfence
  | serialize | sfence | wbinvd | wbnoinvd
  /- Saved state -/
  | fxrstor (wide : Bool) | fxsave (wide : Bool) | ldmxcsr | stmxcsr | xgetbv
  | xrstor (wide : Bool) | xrstors (wide : Bool) | xsave (wide : Bool)
  | xsavec (wide : Bool) | xsaveopt (wide : Bool) | xsaves (wide : Bool) | xsetbv
  /- Virtual machines -/
  | clgi | invept | invlpga | invlpgb | invvpid | psmash | pvalidate | rmpadjust
  | rmpupdate | seamcall | seamops | seamret | skinit | stgi | tdcall | tlbsync | vmcall
  | vmclear | vmfunc | vmgexit | vmlaunch | vmload | vmmcall | vmptrld | vmptrst | vmread
  | vmresume | vmrun | vmsave | vmwrite | vmxoff | vmxon
  /- Enclaves, ciphers and random numbers -/
  | encls | enclu | enclv | getsec | montmul | pbndkb | pconfig | xcryptcbc | xcryptcfb
  | xcryptctr | xcryptecb | xcryptofb | xsha1 | xsha256 | xstore
  /- Shadow stacks -/
  | clrssbsy | incssp (w : Width) | rdssp (w : Width) | rstorssp | saveprevssp | setssbsy
  | wrss (w : Width) | wruss (w : Width)
  /- Transactions -/
  | xabort | xbegin | xend | xresldtrk | xsusldtrk | xtest
  /- Waiting, and interrupts that programs send each other -/
  | clui | monitor | monitorx | mwait | mwaitx | senduipi | stui | testui | tpause | uiret
  | umonitor | umwait
  /- Devices, traces and history -/
  | enqcmd | enqcmds | hreset | ptwrite
deriving DecidableEq, Repr

namespace SystemOperation

/-- The ending of operations that save or load the registers of 64-bit code. -/
def stateEnding (wide : Bool) : String :=
  if wide then "64" else ""

/-- The ending of operations that go to 64-bit code. -/
def transferEnding (wide : Bool) : String :=
  if wide then "q" else ""

def text : SystemOperation → String
  | clac => "clac"
  | clts => "clts"
  | invd => "invd"
  | invlpg => "invlpg"
  | invpcid => "invpcid"
  | lar => "lar"
  | lgdt => "lgdt"
  | lidt => "lidt"
  | lkgs => "lkgs"
  | lldt => "lldt"
  | lmsw => "lmsw"
  | lsl => "lsl"
  | ltr => "ltr"
  | rdfsbase => "rdfsbase"
  | rdgsbase => "rdgsbase"
  | rdmsr => "rdmsr"
  | rdmsrlist => "rdmsrlist"
  | rdpid => "rdpid"
  | rdpkru => "rdpkru"
  | rdpmc => "rdpmc"
  | rdpru => "rdpru"
  | rsm => "rsm"
  | sgdt => "sgdt"
  | sidt => "sidt"
  | sldt => "sldt"
  | smsw => "smsw"
  | stac => "stac"
  | str => "str"
  | swapgs => "swapgs"
  | verr => "verr"
  | verw => "verw"
  | wrfsbase => "wrfsbase"
  | wrgsbase => "wrgsbase"
  | wrmsr => "wrmsr"
  | wrmsrlist => "wrmsrlist"
  | wrmsrns => "wrmsrns"
  | wrpkru => "wrpkru"
  | eretu => "eretu"
  | erets => "erets"
  | syscall => "syscall"
  | sysenter => "sysenter"
  | sysexit wide => "sysexit" ++ transferEnding wide
  | sysret wide => "sysret" ++ transferEnding wide
  | cldemote => "cldemote"
  | clflush => "clflush"
  | clflushopt => "clflushopt"
  | clwb => "clwb"
  | clzero => "clzero"
  | lfence => "lfence"
  | mcommit => "mcommit"
  | mfence => "mfence"
  | serialize => "serialize"
  | sfence => "sfence"
  | wbinvd => "wbinvd"
  | wbnoinvd => "wbnoinvd"
  | fxrstor wide => "fxrstor" ++ stateEnding wide
  | fxsave wide => "fxsave" ++ stateEnding wide
  | ldmxcsr => "ldmxcsr"
  | stmxcsr => "stmxcsr"
  | xgetbv => "xgetbv"
  | xrstor wide => "xrstor" ++ stateEnding wide
  | xrstors wide => "xrstors" ++ stateEnding wide
  | xsave wide => "xsave" ++ stateEnding wide
  | xsavec wide => "xsavec" ++ stateEnding wide
  | xsaveopt wide => "xsaveopt" ++ stateEnding wide
  | xsaves wide => "xsaves" ++ stateEnding wide
  | xsetbv => "xsetbv"
  | clgi => "clgi"
  | invept => "invept"
  | invlpga => "invlpga"
  | invlpgb => "invlpgb"
  | invvpid => "invvpid"
  | psmash => "psmash"
  | pvalidate => "pvalidate"
  | rmpadjust => "rmpadjust"
  | rmpupdate => "rmpupdate"
  | seamcall => "seamcall"
  | seamops => "seamops"
  | seamret => "seamret"
  | skinit => "skinit"
  | stgi => "stgi"
  | tdcall => "tdcall"
  | tlbsync => "tlbsync"
  | vmcall => "vmcall"
  | vmclear => "vmclear"
  | vmfunc => "vmfunc"
  | vmgexit => "vmgexit"
  | vmlaunch => "vmlaunch"
  | vmload => "vmload"
  | vmmcall => "vmmcall"
  | vmptrld => "vmptrld"
  | vmptrst => "vmptrst"
  | vmread => "vmread"
  | vmresume => "vmresume"
  | vmrun => "vmrun"
  | vmsave => "vmsave"
  | vmwrite => "vmwrite"
  | vmxoff => "vmxoff"
  | vmxon => "vmxon"
  | encls => "encls"
  | enclu => "enclu"
  | enclv => "enclv"
  | getsec => "getsec"
  | montmul => "montmul"
  | pbndkb => "pbndkb"
  | pconfig => "pconfig"
  | xcryptcbc => "xcryptcbc"
  | xcryptcfb => "xcryptcfb"
  | xcryptctr => "xcryptctr"
  | xcryptecb => "xcryptecb"
  | xcryptofb => "xcryptofb"
  | xsha1 => "xsha1"
  | xsha256 => "xsha256"
  | xstore => "xstore"
  | clrssbsy => "clrssbsy"
  | incssp w => "incssp" ++ w.letter
  | rdssp w => "rdssp" ++ w.letter
  | rstorssp => "rstorssp"
  | saveprevssp => "saveprevssp"
  | setssbsy => "setssbsy"
  | wrss w => "wrss" ++ w.letter
  | wruss w => "wruss" ++ w.letter
  | xabort => "xabort"
  | xbegin => "xbegin"
  | xend => "xend"
  | xresldtrk => "xresldtrk"
  | xsusldtrk => "xsusldtrk"
  | xtest => "xtest"
  | clui => "clui"
  | monitor => "monitor"
  | monitorx => "monitorx"
  | mwait => "mwait"
  | mwaitx => "mwaitx"
  | senduipi => "senduipi"
  | stui => "stui"
  | testui => "testui"
  | tpause => "tpause"
  | uiret => "uiret"
  | umonitor => "umonitor"
  | umwait => "umwait"
  | enqcmd => "enqcmd"
  | enqcmds => "enqcmds"
  | hreset => "hreset"
  | ptwrite => "ptwrite"

/-- Operations on a run of memory, which a repeat byte repeats like a string operation. -/
def isRepeatable : SystemOperation → Bool
  | montmul | xcryptcbc | xcryptcfb | xcryptctr | xcryptecb | xcryptofb | xsha1 | xsha256
  | xstore => true
  | _ => false

/-- Operations on memory at an address in a register that they do not name, whose width
their operands do not tell. -/
def hidesAddress : SystemOperation → Bool
  | clzero | invlpgb | monitor | monitorx | pvalidate => true
  | o => o.isRepeatable

end SystemOperation
end JumpHooks
