import CloneProjects.Base.Run
import CloneProjects.Base.CallTable
import CloneProjects.Base.Chain
import CloneProjects.Base.EditBuffer
import CloneProjects.Base.BusyFlag
import CloneProjects.Base.Gaps
import CloneProjects.Base.Numeral
import CloneProjects.Firebase
import CloneProjects.Pods.JGProgressHUD
import CloneProjects.Pods.SDWebImage
import CloneProjects.Tinder.User
import CloneProjects.Tinder.ProfileCard
import CloneProjects.Tinder.Main.Screen
import CloneProjects.Tinder.Main.Deck
import CloneProjects.Tinder.Settings.Screen
import CloneProjects.Tinder.Settings.Buffer
import CloneProjects.Tinder.Settings.Saving
import CloneProjects.Tinder.Settings.Codec
import CloneProjects.Tinder.Settings.Untouched
import CloneProjects.Tinder.Settings.Photos
import CloneProjects.Tinder.Settings.Edits
import CloneProjects.Tinder.Settings.AgeRange
import CloneProjects.Tinder.Register.ViewModel
import CloneProjects.Tinder.Register.Screen
import CloneProjects.Tinder.Register.Gate
import CloneProjects.Tinder.Register.Session
import CloneProjects.Tinder.Register.Outcome
import CloneProjects.Tinder.Carousel
import CloneProjects.Tinder.CardPhotos
import CloneProjects.Tinder.Settings.PhotoArea
import CloneProjects.Tinder.Register.Captured
import CloneProjects.Tinder.Membership
import CloneProjects.Tinder.BusyFlags
import CloneProjects.Tinder.App
import CloneProjects.Tinder.Huds
import CloneProjects.Insta.Screen
import CloneProjects.Insta.Button
import CloneProjects.Insta.Progress
import CloneProjects.Insta.Accounts
import CloneProjects.Tinder.Register.Hud
import CloneProjects.Tinder.Service
import CloneProjects.Tinder.Documents
import CloneProjects.Tinder.Origins
import CloneProjects.Tinder.Profiles
import CloneProjects.Insta.Profile
