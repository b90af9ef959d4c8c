import RunAudit.Command.Request
import RunAudit.Report.Console

/-!
# Scripts that complete command lines

The scripts that the executable is given, one for each shell: they offer the commands of the program, and the switches
of a command after its name. A request writes whatever script its environment has for a shell.
-/

namespace RunAudit.Command

/-- A switch by its long name, as a word. -/
def Switch.longWord (s : Switch) : String := "--" ++ s.long

/-- The switches of a command as words. -/
def Verb.switchWords (v : Verb) : String := String.intercalate " " ((Verb.help :: v.switches).map Switch.longWord)

/-- The commands as words. -/
def verbWords : String := String.intercalate " " (Verb.all.map Verb.name)

/-- The branches of a script, one for each command. -/
def branches (branch : Verb → String) : String := String.join (Verb.all.map branch)

/-- The name of the function of a script. -/
def functionName : String := "_run_results_verifier"

/-- A script for `bash`. -/
def bashScript : String :=
  functionName ++ "() \x7b\n    local words=\"" ++ verbWords ++ "\"\n    case \"$\x7bCOMP_WORDS[1]\x7d\" in\n" ++
    branches (fun v => "        " ++ v.name ++ ") words=\"" ++ v.switchWords ++ "\" ;;\n") ++
    "    esac\n    COMPREPLY=( $(compgen -W \"$words\" -- \"$2\") )\n\x7d\ncomplete -F " ++ functionName ++ " " ++
    programName ++ "\n"

/-- A script for `zsh`. -/
def zshScript : String :=
  "#compdef " ++ programName ++ "\n" ++ functionName ++ "() \x7b\n    case \"$words[2]\" in\n" ++
    branches (fun v => "        " ++ v.name ++ ") compadd -- " ++ v.switchWords ++ " ;;\n") ++
    "        *) compadd -- " ++ verbWords ++ " ;;\n    esac\n\x7d\n" ++ functionName ++ " \"$@\"\n"

/-- A script for `fish`. -/
def fishScript : String :=
  "complete -c " ++ programName ++ " -n __fish_use_subcommand -f -a \"" ++ verbWords ++ "\"\n" ++
    branches fun v =>
      "complete -c " ++ programName ++ " -n \"__fish_seen_subcommand_from " ++ v.name ++ "\" -a \"" ++
        v.switchWords ++ "\"\n"

/-- A script for `powershell`. -/
def powershellScript : String :=
  "Register-ArgumentCompleter -Native -CommandName '" ++ programName ++
    "' -ScriptBlock \x7b\n    param($word, $line)\n    $words = '" ++ verbWords ++ "'\n" ++
    branches (fun v =>
      "    if ($line.CommandElements[1].Value -eq '" ++ v.name ++ "') \x7b $words = '" ++ v.switchWords ++ "' \x7d\n") ++
    "    $words -split ' ' | Where-Object \x7b $_ -like \"$word*\" \x7d\n\x7d\n"

/-- The script for a shell. -/
def Shell.script : Shell → String
  | .bash => bashScript
  | .zsh => zshScript
  | .fish => fishScript
  | .powershell => powershellScript

end RunAudit.Command
